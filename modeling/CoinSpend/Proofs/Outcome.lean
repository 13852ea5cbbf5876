/-
This file states when a chain of steps that can fail succeeds, and which step of a list fails first.
-/

namespace CoinSpend

/-- Two steps succeed exactly when the first does and the second does with its result. -/
theorem bind_eq_ok {E A B : Type} {first : Except E A} {second : A → Except E B} {result : B} :
    (first >>= second) = .ok result ↔ ∃ value, first = .ok value ∧ second value = .ok result := by
  cases first with
  | error fault => simp [bind, Except.bind]
  | ok value => simp [bind, Except.bind]

theorem map_eq_ok {E A B : Type} {step : Except E A} {change : A → B} {result : B} :
    step.map change = .ok result ↔ ∃ value, step = .ok value ∧ change value = result := by
  cases step with
  | error fault => simp [Except.map]
  | ok value => simp [Except.map]

/-- Rewording a fault does not touch success. -/
theorem mapError_eq_ok {E F A : Type} {step : Except E A} {reword : E → F} {result : A} :
    step.mapError reword = .ok result ↔ step = .ok result := by
  cases step with
  | error fault =>
      apply Iff.intro
      · intro success
        cases success
      · intro success
        cases success
  | ok value =>
      apply Iff.intro
      · intro success
        cases success
        rfl
      · intro success
        cases success
        rfl

section

variable {E A B C : Type} {step : A → Except E B} {items : List A}

/-- A list is worked through up to an item at which the step fails. -/
structure StopsAt (step : A → Except E B) (items : List A) (position : Nat) (fault : E) :
    Prop where
  failed : ∃ item, items[position]? = some item ∧ step item = .error fault
  before : ∀ earlier < position, ∃ item result,
    items[earlier]? = some item ∧ step item = .ok result

/-- The results stand where their items do. -/
theorem mapM_getElem? {results : List B} (collected : items.mapM step = .ok results) :
    results.length = items.length ∧ ∀ (position : Nat) (item : A), items[position]? = some item →
      ∃ result, results[position]? = some result ∧ step item = .ok result := by
  induction items generalizing results with
  | nil =>
      cases collected
      simp
  | cons first items ih =>
      rw [List.mapM_cons] at collected
      obtain ⟨result, done, rest⟩ := bind_eq_ok.mp collected
      obtain ⟨others, later, same⟩ := bind_eq_ok.mp rest
      cases same
      obtain ⟨sizes, entries⟩ := ih later
      refine ⟨by simp [sizes], ?_⟩
      intro position item found
      cases position with
      | zero =>
          cases found
          exact ⟨result, rfl, done⟩
      | succ position => exact entries position item found

theorem stopsAt_zero {first : A} {fault : E} :
    StopsAt step (first :: items) 0 fault ↔ step first = .error fault := by
  constructor
  · rintro ⟨⟨item, found, failed⟩, -⟩
    cases found
    exact failed
  · intro failed
    exact ⟨⟨first, rfl, failed⟩, fun earlier impossible => absurd impossible (Nat.not_lt_zero _)⟩

theorem stopsAt_succ {first : A} {position : Nat} {fault : E} :
    StopsAt step (first :: items) (position + 1) fault ↔
      (∃ result, step first = .ok result) ∧ StopsAt step items position fault := by
  constructor
  · rintro ⟨failed, before⟩
    obtain ⟨item, result, found, done⟩ := before 0 (Nat.succ_pos position)
    cases found
    exact ⟨⟨result, done⟩, failed, fun earlier inside =>
      before (earlier + 1) (Nat.succ_lt_succ inside)⟩
  · rintro ⟨⟨result, done⟩, failed, before⟩
    refine ⟨failed, ?_⟩
    intro earlier inside
    cases earlier with
    | zero => exact ⟨first, result, rfl, done⟩
    | succ earlier => exact before earlier (Nat.lt_of_succ_lt_succ inside)

/-- The first item at which the step fails decides the fault. -/
theorem mapM_eq_error {fault : E} :
    items.mapM step = .error fault ↔ ∃ position, StopsAt step items position fault := by
  induction items with
  | nil =>
      constructor
      · intro refused
        cases refused
      · rintro ⟨position, ⟨item, found, -⟩, -⟩
        cases found
  | cons first items ih =>
      have split : (first :: items).mapM step = .error fault ↔ step first = .error fault ∨
          (∃ result, step first = .ok result) ∧ items.mapM step = .error fault := by
        rw [List.mapM_cons]
        cases step first with
        | error other => simp [bind, Except.bind]
        | ok result => cases items.mapM step <;> simp [bind, Except.bind, pure, Except.pure]
      rw [split, ih]
      constructor
      · rintro (failed | ⟨done, position, stops⟩)
        · exact ⟨0, stopsAt_zero.mpr failed⟩
        · exact ⟨position + 1, stopsAt_succ.mpr ⟨done, stops⟩⟩
      · rintro ⟨position, stops⟩
        cases position with
        | zero => exact .inl (stopsAt_zero.mp stops)
        | succ position =>
            obtain ⟨done, later⟩ := stopsAt_succ.mp stops
            exact .inr ⟨done, position, later⟩

/-- A change of every result is a change of the whole. -/
theorem mapM_map_result (step : A → Except E B) (change : B → C) (items : List A) :
    (items.mapM fun item => (step item).map change) = (items.mapM step).map (List.map change) := by
  induction items with
  | nil => rfl
  | cons first items ih =>
      rw [List.mapM_cons, List.mapM_cons, ih]
      cases step first with
      | error fault => rfl
      | ok result => cases items.mapM step <;> rfl

end

end CoinSpend
