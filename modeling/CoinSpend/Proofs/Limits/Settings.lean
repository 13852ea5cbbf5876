/-
This file states which tokens are read as settings: those of a value that gives entries to the
names, with nothing behind it.
-/

import CoinSpend.Proofs.Limits.Value

namespace CoinSpend.Limits

theorem Name.ofCharacters?_eq_some {characters : List Char} {name : Name} :
    Name.ofCharacters? characters = some name ↔ characters = name.characters := by
  apply Iff.intro
  · intro found
    have same := List.find?_some found
    simpa [eq_comm] using same
  · intro same
    subst same
    cases name <;> rfl

namespace Settings

variable {before after : Settings}

theorem get?_put (settings : Settings) (value : Nat) (name other : Name) :
    (settings.put value name).get? other =
      if other = name then some value else settings.get? other := by
  cases name <;> cases other <;> rfl

theorem assign?_eq_some {characters : List Char} {value : Nat} :
    before.assign? characters value = some after ↔ ∃ name : Name,
      characters = name.characters ∧ before.get? name = none ∧ after = before.put value name := by
  simp only [assign?, ← Name.ofCharacters?_eq_some]
  cases Name.ofCharacters? characters with
  | none => simp
  | some name =>
      simp only [Option.some.injEq, exists_eq_left']
      cases before.get? name <;> simp [eq_comm]

theorem ne_of_absent {name : Name} {entries : List (Name × Nat)}
    (absent : name ∉ entries.map Prod.fst) {entry : Name × Nat} (inside : entry ∈ entries) :
    entry.1 ≠ name := by
  intro same
  exact absent (same ▸ List.mem_map_of_mem inside)

/-- This function puts every entry into the settings. -/
def fill (settings : Settings) (entries : List (Name × Nat)) : Settings :=
  entries.foldl (fun settings entry => settings.put entry.2 entry.1) settings

theorem fill_cons (settings : Settings) (entry : Name × Nat) (entries : List (Name × Nat)) :
    settings.fill (entry :: entries) = (settings.put entry.2 entry.1).fill entries := rfl

/-- The settings take these entries one after the other. -/
structure Admits (settings : Settings) (entries : List (Name × Nat)) : Prop where
  once : (entries.map Prod.fst).Nodup
  unset : ∀ entry ∈ entries, settings.get? entry.1 = none

theorem admits_nil (settings : Settings) : settings.Admits [] := ⟨by simp, by simp⟩

theorem admits_cons (settings : Settings) (entry : Name × Nat) (entries : List (Name × Nat)) :
    settings.Admits (entry :: entries) ↔
      settings.get? entry.1 = none ∧ (settings.put entry.2 entry.1).Admits entries := by
  apply Iff.intro
  · intro ⟨once, unset⟩
    rw [List.map_cons, List.nodup_cons] at once
    refine ⟨unset entry List.mem_cons_self, once.2, ?_⟩
    intro other inside
    rw [get?_put, if_neg (ne_of_absent once.1 inside)]
    exact unset other (List.mem_cons_of_mem _ inside)
  · intro ⟨first, once, unset⟩
    have others : ∀ other ∈ entries, other.1 ≠ entry.1 ∧ settings.get? other.1 = none := by
      intro other inside
      have absent := unset other inside
      rw [get?_put] at absent
      split at absent
      · cases absent
      · next different => exact ⟨different, absent⟩
    refine ⟨?_, List.forall_mem_cons.mpr ⟨first, fun other inside => (others other inside).2⟩⟩
    rw [List.map_cons, List.nodup_cons]
    refine ⟨?_, once⟩
    intro inside
    obtain ⟨other, inside, same⟩ := List.mem_map.mp inside
    exact (others other inside).1 same

theorem get?_fill (settings : Settings) {entries : List (Name × Nat)}
    (once : (entries.map Prod.fst).Nodup) (name : Name) :
    (settings.fill entries).get? name = (entries.lookup name).or (settings.get? name) := by
  induction entries generalizing settings with
  | nil => simp [fill]
  | cons entry entries ih =>
      rw [List.map_cons, List.nodup_cons] at once
      rw [fill_cons, ih _ once.2, get?_put, List.lookup_cons]
      by_cases same : name = entry.1
      · subst same
        have absent : entries.lookup entry.1 = none := by
          rw [List.lookup_eq_none_iff]
          intro other inside
          exact bne_iff_ne.mpr (ne_of_absent once.1 inside).symm
        simp [absent]
      · have test : (name == entry.1) = false := beq_eq_false_iff_ne.mpr same
        simp [test, same]

/-- The settings that the entries of a document make are the limits that it gives. -/
theorem complete_fill {entries : List (Name × Nat)} (once : (entries.map Prod.fst).Nodup) :
    (Settings.empty.fill entries).complete = given entries := by
  have filled (name : Name) : (Settings.empty.fill entries).get? name = entries.lookup name := by
    rw [get?_fill _ once]
    cases name <;> simp [get?, empty]
  have inputs := filled .maxInputs
  have outputs := filled .maxOutputs
  have scripts := filled .maxScriptBytes
  simp only [get?] at inputs outputs scripts
  simp [complete, given, inputs, outputs, scripts]

end Settings

variable {before after : Settings} {tokens : List Token}

/-- A member is read as a name, a colon and a number, and the closing brace or a comma follows. -/
theorem members?_eq_some : members? before tokens = some after ↔
    ∃ characters value rest next, tokens = .name characters :: .colon :: .number value :: rest ∧
      before.assign? characters value = some next ∧
      (rest = [.closeObject] ∧ after = next ∨
        ∃ others, rest = .comma :: others ∧ members? next others = some after) := by
  apply Iff.intro
  · fun_cases members? before tokens with
    | case1 characters value =>
        intro found
        exact ⟨characters, value, _, after, rfl, found, .inl ⟨rfl, rfl⟩⟩
    | case2 => simp
    | case3 characters value others next assigned =>
        intro found
        exact ⟨characters, value, _, next, rfl, assigned, .inr ⟨others, rfl, found⟩⟩
    | case4 => simp
  · intro ⟨characters, value, rest, next, parts, assigned, ending⟩
    subst parts
    cases ending with
    | inl last =>
        obtain ⟨rfl, rfl⟩ := last
        exact assigned
    | inr more =>
        obtain ⟨others, rfl, found⟩ := more
        rw [members?, assigned]
        exact found

theorem elements?_eq_some {names : List Name} : elements? before names tokens = some after ↔
    ∃ name others value rest, names = name :: others ∧ tokens = .number value :: rest ∧
      (rest = [.closeArray] ∧ after = before.put value name ∨
        ∃ more, rest = .comma :: more ∧
          elements? (before.put value name) others more = some after) := by
  apply Iff.intro
  · fun_cases elements? before names tokens with
    | case1 name others value =>
        intro found
        exact ⟨name, others, value, _, rfl, rfl, .inl ⟨rfl, (Option.some.inj found).symm⟩⟩
    | case2 name others value more =>
        intro found
        exact ⟨name, others, value, _, rfl, rfl, .inr ⟨more, rfl, found⟩⟩
    | case3 => simp
  · intro ⟨name, others, value, rest, names, parts, ending⟩
    subst names parts
    cases ending with
    | inl last =>
        obtain ⟨rfl, rfl⟩ := last
        rfl
    | inr more =>
        obtain ⟨more, rfl, found⟩ := more
        exact found

theorem settings?_eq_some : settings? tokens = some after ↔
    (tokens = [.openObject, .closeObject] ∨ tokens = [.openArray, .closeArray]) ∧ after = .empty ∨
      (∃ rest, tokens = .openObject :: rest ∧ members? .empty rest = some after) ∨
      ∃ rest, tokens = .openArray :: rest ∧ elements? .empty Name.all rest = some after := by
  apply Iff.intro
  · fun_cases settings? tokens with
    | case1 =>
        intro found
        exact .inl ⟨.inl rfl, (Option.some.inj found).symm⟩
    | case2 =>
        intro found
        exact .inl ⟨.inr rfl, (Option.some.inj found).symm⟩
    | case3 rest =>
        intro found
        exact .inr (.inl ⟨rest, rfl, found⟩)
    | case4 rest =>
        intro found
        exact .inr (.inr ⟨rest, rfl, found⟩)
    | case5 => simp
  · intro parts
    rcases parts with ⟨rfl | rfl, rfl⟩ | ⟨rest, rfl, found⟩ | ⟨rest, rfl, found⟩
    · rfl
    · rfl
    · obtain ⟨_, _, _, _, rfl, _⟩ := members?_eq_some.mp found
      exact found
    · obtain ⟨_, _, _, _, _, rfl, _⟩ := elements?_eq_some.mp found
      exact found

/-- Only a word can be read as a number. -/
theorem Value.word_or_other (value : Value) : (∃ characters, value = .word characters) ∨
    (∀ number, ¬ value.IsPlain number) ∧ ∃ first others, value.lexemes = first :: others ∧
      ∀ number, ¬ Reads first (.number number) := by
  cases value with
  | word characters => exact .inl ⟨characters, rfl⟩
  | quoted raw => exact .inr ⟨nofun, .quoted raw, [], by rw [lexemes], nofun⟩
  | list elements =>
      exact .inr ⟨nofun, .mark .openArray, elementLexemes elements, by rw [lexemes],
        by simp [reads_mark, Mark.token]⟩
  | object members =>
      exact .inr ⟨nofun, .mark .openObject, memberLexemes members, by rw [lexemes],
        by simp [reads_mark, Mark.token]⟩

/-- A value that is read as a number is a plain number, with no lexeme besides. -/
theorem exists_reads_value {value : Value} {lexemes : List Lexeme} {claim : List Token → Prop}
    (starts : ∀ token rest, claim (token :: rest) → ∃ number, token = .number number) :
    (∃ found, List.Forall₂ Reads (value.lexemes ++ lexemes) found ∧ claim found) ↔
      ∃ number, value.IsPlain number ∧
        ∃ found, List.Forall₂ Reads lexemes found ∧ claim (.number number :: found) := by
  rcases value.word_or_other with ⟨characters, rfl⟩ | ⟨other, first, others, parts, strange⟩
  · rw [Value.lexemes, List.singleton_append, exists_forall₂_cons]
    apply Iff.intro
    · intro ⟨token, reads, rest⟩
      obtain ⟨number, numeral, rfl⟩ := reads_word.mp reads
      exact ⟨number, .word numeral, rest⟩
    · intro ⟨number, plain, rest⟩
      cases plain with
      | word numeral => exact ⟨_, .word numeral, rest⟩
  · rw [parts, List.cons_append, exists_forall₂_cons]
    apply Iff.intro
    · intro ⟨token, reads, found, _, holds⟩
      obtain ⟨number, rfl⟩ := starts token found holds
      exact absurd reads (strange number)
    · intro ⟨number, plain, _⟩
      exact absurd plain (other number)

/-- One member is read as an entry of a limit that is not set yet. -/
theorem member_read (raw : List Char) (value : Value) (lexemes : List Lexeme)
    {extra : List Token} :
    (∃ found, List.Forall₂ Reads (.quoted raw :: .mark .colon :: (value.lexemes ++ lexemes)) found ∧
      members? before (found ++ extra) = some after) ↔
    ∃ entry : Name × Nat, Sets (raw, value) entry ∧ before.get? entry.1 = none ∧
      ∃ found, List.Forall₂ Reads lexemes found ∧
        (found ++ extra = [.closeObject] ∧ after = before.put entry.2 entry.1 ∨
          ∃ others, found ++ extra = .comma :: others ∧
            members? (before.put entry.2 entry.1) others = some after) := by
  have starts (letters : List Char) : ∀ token rest,
      members? before (.name letters :: .colon :: token :: rest ++ extra) = some after →
        ∃ number, token = .number number := by
    intro token rest found
    obtain ⟨_, number, _, _, parts, _⟩ := members?_eq_some.mp found
    cases parts
    exact ⟨number, rfl⟩
  simp only [exists_forall₂_cons, reads_quoted, reads_mark]
  apply Iff.intro
  · intro ⟨_, ⟨letters, named, same⟩, _, same', rest⟩
    subst same same'
    obtain ⟨number, plain, found, reads, read⟩ := (exists_reads_value (starts letters)).mp rest
    obtain ⟨_, _, _, next, parts, assigned, ending⟩ := members?_eq_some.mp read
    cases parts
    obtain ⟨name, rfl, unset, rfl⟩ := Settings.assign?_eq_some.mp assigned
    exact ⟨(name, number), ⟨named, plain⟩, unset, found, reads, ending⟩
  · intro ⟨⟨name, number⟩, ⟨named, plain⟩, unset, found, reads, ending⟩
    refine ⟨_, ⟨_, named, rfl⟩, _, rfl, (exists_reads_value (starts _)).mpr ⟨number, plain, found,
      reads, members?_eq_some.mpr ⟨_, number, found ++ extra, _, rfl, ?_, ending⟩⟩⟩
    exact Settings.assign?_eq_some.mpr ⟨name, rfl, unset, rfl⟩

/-- The members are read to the closing brace, and nothing may follow it. -/
theorem members_read (first : List Char × Value) (rest : List (List Char × Value))
    {extra : List Token} :
    (∃ found, List.Forall₂ Reads (memberLexemes (first :: rest)) found ∧
      members? before (found ++ extra) = some after) ↔
    extra = [] ∧ ∃ entries, List.Forall₂ Sets (first :: rest) entries ∧ before.Admits entries ∧
      after = before.fill entries := by
  -- What is set so far grows with every member, so it is generalised.
  induction rest generalizing first before with
  | nil =>
      rw [memberLexemes, member_read]
      simp only [exists_forall₂_cons, reads_mark, List.forall₂_nil_left_iff]
      apply Iff.intro
      · intro ⟨entry, sets, unset, _, same, found, finished, ending⟩
        subst same finished
        rcases ending with ⟨closed, rfl⟩ | ⟨_, clash, _⟩
        · exact ⟨(List.cons_eq_cons.mp closed).2, entry, sets, [], rfl,
            (Settings.admits_cons ..).mpr ⟨unset, Settings.admits_nil _⟩, rfl⟩
        · cases clash
      · intro ⟨closed, entry, sets, entries, finished, admits, same⟩
        subst closed finished same
        exact ⟨entry, sets, ((Settings.admits_cons ..).mp admits).1, _, rfl, [], rfl,
          .inl ⟨rfl, rfl⟩⟩
  | cons second rest ih =>
      rw [memberLexemes, member_read]
      simp only [@exists_forall₂_cons _ _ Sets first, @exists_forall₂_cons _ _ Reads (.mark .comma),
        reads_mark]
      apply Iff.intro
      · intro ⟨entry, sets, unset, _, same, found, reads, ending⟩
        subst same
        rcases ending with ⟨clash, _⟩ | ⟨_, others, read⟩
        · cases clash
        · obtain ⟨-, rfl⟩ := List.cons_eq_cons.mp others
          obtain ⟨closed, entries, all, admits, filled⟩ := (ih second).mp ⟨found, reads, read⟩
          exact ⟨closed, entry, sets, entries, all,
            (Settings.admits_cons ..).mpr ⟨unset, admits⟩, filled⟩
      · intro ⟨closed, entry, sets, entries, all, admits, filled⟩
        obtain ⟨unset, admits⟩ := (Settings.admits_cons ..).mp admits
        obtain ⟨found, reads, read⟩ := (ih second).mpr ⟨closed, entries, all, admits, filled⟩
        exact ⟨entry, sets, unset, _, rfl, found, reads, .inr ⟨_, rfl, read⟩⟩

/-- One element is read as the number of the next name. -/
theorem element_read (value : Value) (lexemes : List Lexeme) (names : List Name)
    {extra : List Token} :
    (∃ found, List.Forall₂ Reads (value.lexemes ++ lexemes) found ∧
      elements? before names (found ++ extra) = some after) ↔
    ∃ number, value.IsPlain number ∧ ∃ name others, names = name :: others ∧
      ∃ found, List.Forall₂ Reads lexemes found ∧
        (found ++ extra = [.closeArray] ∧ after = before.put number name ∨
          ∃ more, found ++ extra = .comma :: more ∧
            elements? (before.put number name) others more = some after) := by
  have starts : ∀ token rest, elements? before names (token :: rest ++ extra) = some after →
      ∃ number, token = .number number := by
    intro token rest found
    obtain ⟨_, _, number, _, _, parts, _⟩ := elements?_eq_some.mp found
    cases parts
    exact ⟨number, rfl⟩
  rw [exists_reads_value starts]
  apply Iff.intro
  · intro ⟨number, plain, found, reads, read⟩
    obtain ⟨name, others, _, _, names, parts, ending⟩ := elements?_eq_some.mp read
    cases parts
    exact ⟨number, plain, name, others, names, found, reads, ending⟩
  · intro ⟨number, plain, name, others, names, found, reads, ending⟩
    exact ⟨number, plain, found, reads,
      elements?_eq_some.mpr ⟨name, others, number, found ++ extra, names, rfl, ending⟩⟩

/-- The elements are read to the closing bracket, as long as there are names for them. -/
theorem elements_read (first : Value) (rest : List Value) (names : List Name)
    {extra : List Token} :
    (∃ found, List.Forall₂ Reads (elementLexemes (first :: rest)) found ∧
      elements? before names (found ++ extra) = some after) ↔
    extra = [] ∧ ∃ numbers, List.Forall₂ Value.IsPlain (first :: rest) numbers ∧
      numbers.length ≤ names.length ∧ after = before.fill (names.zip numbers) := by
  induction rest generalizing first before names with
  | nil =>
      rw [elementLexemes, element_read]
      simp only [exists_forall₂_cons, reads_mark, List.forall₂_nil_left_iff]
      apply Iff.intro
      · intro ⟨number, plain, name, others, names, _, same, found, finished, ending⟩
        subst names same finished
        rcases ending with ⟨closed, rfl⟩ | ⟨_, clash, _⟩
        · exact ⟨(List.cons_eq_cons.mp closed).2, number, plain, [], rfl, Nat.succ_pos _,
            by simp [Settings.fill]⟩
        · cases clash
      · intro ⟨closed, number, plain, numbers, finished, few, same⟩
        subst closed finished same
        cases names with
        | nil => simp at few
        | cons name others =>
            exact ⟨number, plain, name, others, rfl, _, rfl, [], rfl,
              .inl ⟨rfl, by simp [Settings.fill]⟩⟩
  | cons second rest ih =>
      rw [elementLexemes, element_read]
      simp only [@exists_forall₂_cons _ _ Value.IsPlain first,
        @exists_forall₂_cons _ _ Reads (.mark .comma), reads_mark]
      apply Iff.intro
      · intro ⟨number, plain, name, others, names, _, same, found, reads, ending⟩
        subst names same
        rcases ending with ⟨clash, _⟩ | ⟨_, more, read⟩
        · cases clash
        · obtain ⟨-, rfl⟩ := List.cons_eq_cons.mp more
          obtain ⟨closed, numbers, all, few, filled⟩ := (ih second others).mp ⟨found, reads, read⟩
          exact ⟨closed, number, plain, numbers, all, Nat.succ_le_succ few, filled⟩
      · intro ⟨closed, number, plain, numbers, all, few, filled⟩
        cases names with
        | nil => simp at few
        | cons name others =>
            obtain ⟨found, reads, read⟩ :=
              (ih second others).mpr ⟨closed, numbers, all, Nat.le_of_succ_le_succ few, filled⟩
            exact ⟨number, plain, name, others, rfl, _, rfl, found, reads, .inr ⟨_, rfl, read⟩⟩

theorem Settings.admits_empty {entries : List (Name × Nat)} :
    Settings.empty.Admits entries ↔ (entries.map Prod.fst).Nodup := by
  apply Iff.intro
  · exact Settings.Admits.once
  · intro once
    refine ⟨once, ?_⟩
    intro ⟨name, number⟩ _
    cases name <;> rfl

theorem settings?_members {first : List Char × Value} {rest : List (List Char × Value)}
    {found : List Token} (reads : List.Forall₂ Reads (memberLexemes (first :: rest)) found)
    (extra : List Token) :
    settings? (.openObject :: found ++ extra) = members? .empty (found ++ extra) := by
  have starts : ∃ others, memberLexemes (first :: rest) = .quoted first.1 :: others := by
    cases rest <;> simp [memberLexemes]
  obtain ⟨others, parts⟩ := starts
  rw [parts] at reads
  cases reads with
  | cons name _ =>
      obtain ⟨letters, _, rfl⟩ := reads_quoted.mp name
      rfl

theorem settings?_elements {first : Value} {rest : List Value}
    {found : List Token} (reads : List.Forall₂ Reads (elementLexemes (first :: rest)) found)
    (extra : List Token) :
    settings? (.openArray :: found ++ extra) = elements? .empty Name.all (found ++ extra) := by
  have nonempty : first.lexemes ≠ [] := by cases first <;> simp [Value.lexemes]
  have two : 1 < (elementLexemes (first :: rest)).length := by
    have some := List.length_pos_of_ne_nil nonempty
    cases rest <;> simp [elementLexemes] <;> omega
  rw [reads.length_eq] at two
  match found with
  | [] | [_] => simp at two
  | token :: _ :: _ => cases token <;> rfl

/-- Nothing may follow an empty list or an empty object. -/
theorem settings?_closed {mark close : Token} (shape : mark = .openObject ∧ close = .closeObject ∨
    mark = .openArray ∧ close = .closeArray) {extra : List Token} :
    settings? (mark :: close :: extra) = some after ↔ extra = [] ∧ after = Settings.empty := by
  rcases shape with ⟨rfl, rfl⟩ | ⟨rfl, rfl⟩
  all_goals cases extra <;> simp [settings?, members?, elements?, eq_comm]

theorem list_read (elements : List Value) {extra : List Token} :
    (∃ found, List.Forall₂ Reads (elementLexemes elements) found ∧
      settings? (.openArray :: found ++ extra) = some after) ↔
    extra = [] ∧ ∃ numbers, List.Forall₂ Value.IsPlain elements numbers ∧
      numbers.length ≤ Name.all.length ∧ after = Settings.empty.fill (Name.all.zip numbers) := by
  cases elements with
  | nil =>
      simp only [elementLexemes, exists_forall₂_cons, reads_mark, exists_eq_left,
        List.forall₂_nil_left_iff]
      simpa [Settings.fill, Mark.token] using settings?_closed (.inr ⟨rfl, rfl⟩)
  | cons first rest =>
      rw [← elements_read]
      apply exists_congr
      intro found
      apply and_congr_right
      intro reads
      rw [settings?_elements reads]

theorem object_read (members : List (List Char × Value)) {extra : List Token} :
    (∃ found, List.Forall₂ Reads (memberLexemes members) found ∧
      settings? (.openObject :: found ++ extra) = some after) ↔
    extra = [] ∧ ∃ entries, List.Forall₂ Sets members entries ∧
      (entries.map Prod.fst).Nodup ∧ after = Settings.empty.fill entries := by
  simp only [← Settings.admits_empty]
  cases members with
  | nil =>
      simp only [memberLexemes, exists_forall₂_cons, reads_mark, exists_eq_left,
        List.forall₂_nil_left_iff]
      simpa [Settings.fill, Settings.admits_nil, Mark.token] using
        settings?_closed (.inl ⟨rfl, rfl⟩)
  | cons first rest =>
      rw [← members_read]
      apply exists_congr
      intro found
      apply and_congr_right
      intro reads
      rw [settings?_members reads]

/-- A document is read as the entries that its value gives, and nothing may follow it. -/
theorem settings_read (value : Value) {extra : List Token} :
    (∃ found, List.Forall₂ Reads value.lexemes found ∧ settings? (found ++ extra) = some after) ↔
    extra = [] ∧ ∃ entries, value.Gives entries ∧ after = Settings.empty.fill entries := by
  cases value with
  | word characters =>
      simp only [Value.lexemes, exists_forall₂_cons, reads_word]
      apply Iff.intro
      · intro ⟨_, ⟨number, _, same⟩, found, _, read⟩
        subst same
        cases read
      · intro ⟨_, _, gives, _⟩
        cases gives
  | quoted raw =>
      simp only [Value.lexemes, exists_forall₂_cons, reads_quoted]
      apply Iff.intro
      · intro ⟨_, ⟨letters, _, same⟩, found, _, read⟩
        subst same
        cases read
      · intro ⟨_, _, gives, _⟩
        cases gives
  | list elements =>
      simp only [Value.lexemes, exists_forall₂_cons, reads_mark, exists_eq_left]
      refine (list_read elements).trans (and_congr_right fun _ => Iff.intro ?_ ?_)
      · intro ⟨numbers, plain, few, filled⟩
        exact ⟨_, .list plain few, filled⟩
      · intro ⟨_, gives, filled⟩
        cases gives with
        | list plain few => exact ⟨_, plain, few, filled⟩
  | object members =>
      simp only [Value.lexemes, exists_forall₂_cons, reads_mark, exists_eq_left]
      refine (object_read members).trans (and_congr_right fun _ => Iff.intro ?_ ?_)
      · intro ⟨entries, sets, once, filled⟩
        exact ⟨entries, .object sets once, filled⟩
      · intro ⟨entries, gives, filled⟩
        cases gives with
        | object sets once => exact ⟨entries, sets, once, filled⟩

/-- What is read as members is spelled by members. -/
theorem exists_members {lexemes : List Lexeme} (reads : List.Forall₂ Reads lexemes tokens)
    (found : members? before tokens = some after) :
    ∃ first rest, lexemes = memberLexemes (first :: rest) := by
  fun_induction members? before tokens generalizing lexemes with
  | case1 before characters value =>
      obtain ⟨raw, _, rfl, afterName⟩ := starts_name reads
      obtain ⟨_, rfl, afterColon⟩ := starts_mark .colon afterName
      obtain ⟨digits, _, rfl, afterNumber⟩ := starts_number afterColon
      obtain ⟨_, rfl, ending⟩ := starts_mark .closeObject afterNumber
      cases ending
      exact ⟨(raw, .word digits), [], rfl⟩
  | case2 => cases found
  | case3 before characters value rest next assigned ih =>
      obtain ⟨raw, _, rfl, afterName⟩ := starts_name reads
      obtain ⟨_, rfl, afterColon⟩ := starts_mark .colon afterName
      obtain ⟨digits, _, rfl, afterNumber⟩ := starts_number afterColon
      obtain ⟨_, rfl, others⟩ := starts_mark .comma afterNumber
      obtain ⟨second, rest, rfl⟩ := ih others found
      exact ⟨(raw, .word digits), second :: rest, rfl⟩
  | case4 => cases found

/-- What is read as elements is spelled by elements. -/
theorem exists_elements {names : List Name} {lexemes : List Lexeme}
    (reads : List.Forall₂ Reads lexemes tokens)
    (found : elements? before names tokens = some after) :
    ∃ first rest, lexemes = elementLexemes (first :: rest) := by
  fun_induction elements? before names tokens generalizing lexemes with
  | case1 before name names value =>
      obtain ⟨digits, _, rfl, afterNumber⟩ := starts_number reads
      obtain ⟨_, rfl, ending⟩ := starts_mark .closeArray afterNumber
      cases ending
      exact ⟨.word digits, [], rfl⟩
  | case2 before name names value rest ih =>
      obtain ⟨digits, _, rfl, afterNumber⟩ := starts_number reads
      obtain ⟨_, rfl, others⟩ := starts_mark .comma afterNumber
      obtain ⟨second, rest, rfl⟩ := ih others found
      exact ⟨.word digits, second :: rest, rfl⟩
  | case3 => cases found

/-- What is read as a document is spelled by a value. -/
theorem exists_value {lexemes : List Lexeme} (reads : List.Forall₂ Reads lexemes tokens)
    (found : settings? tokens = some after) : ∃ value : Value, lexemes = value.lexemes := by
  rcases settings?_eq_some.mp found with ⟨rfl | rfl, _⟩ | ⟨rest, rfl, read⟩ | ⟨rest, rfl, read⟩
  · obtain ⟨_, rfl, afterBrace⟩ := starts_mark .openObject reads
    obtain ⟨_, rfl, ending⟩ := starts_mark .closeObject afterBrace
    cases ending
    exact ⟨.object [], rfl⟩
  · obtain ⟨_, rfl, afterBracket⟩ := starts_mark .openArray reads
    obtain ⟨_, rfl, ending⟩ := starts_mark .closeArray afterBracket
    cases ending
    exact ⟨.list [], rfl⟩
  · obtain ⟨_, rfl, others⟩ := starts_mark .openObject reads
    obtain ⟨first, members, rfl⟩ := exists_members others read
    exact ⟨.object (first :: members), rfl⟩
  · obtain ⟨_, rfl, others⟩ := starts_mark .openArray reads
    obtain ⟨first, elements, rfl⟩ := exists_elements others read
    exact ⟨.list (first :: elements), rfl⟩

end CoinSpend.Limits
