/-
This file follows a loop over items through the states that it reaches and bounds what it has pushed
by the bytes that it has used up.
-/

import CoinSpend.Proofs.Decoder

namespace CoinSpend

/-- A loop has pushed some items on its way from the start to a cursor, each at its position. -/
inductive Decoder.Pushes {A : Type} (item : Nat → Decoder A) (start : Cursor) :
    List A → Cursor → Prop where
  | start : Pushes item start [] start
  | push {pushed : List A} {cursor next : Cursor} {value : A}
      (before : Pushes item start pushed cursor)
      (read : (item pushed.length).run cursor = .ok (value, next)) :
      Pushes item start (pushed ++ [value]) next

namespace Decoder

section

variable {A : Type} {item : Nat → Decoder A} {start cursor next : Cursor} {pushed : List A}

/-- A loop that succeeds gets to its last state by pushing every item. -/
theorem Pushes.manyFrom_ok {collected values : List A} {count : Nat}
    (before : Pushes item start collected.reverse cursor)
    (ran : (manyFrom item count collected.length collected).run cursor = .ok (values, next)) :
    Pushes item start values next ∧ values.length = collected.length + count := by
  induction count generalizing collected cursor with
  | zero =>
      obtain ⟨rfl, rfl⟩ := done_run_ok.mp ran
      exact ⟨before, by simp⟩
  | succ count ih =>
      rw [manyFrom, bind_run_ok] at ran
      obtain ⟨value, middle, read, rest⟩ := ran
      have pushes : Pushes item start (value :: collected).reverse middle := by
        rw [List.reverse_cons]
        exact before.push (by rwa [List.length_reverse])
      obtain ⟨reached, size⟩ := ih pushes rest
      refine ⟨reached, ?_⟩
      rw [size, List.length_cons]
      omega

/-- A loop that fails gets to a state in which the next item cannot be read. -/
theorem Pushes.manyFrom_error {collected : List A} {count : Nat} {fault : Fault}
    (before : Pushes item start collected.reverse cursor)
    (failed : (manyFrom item count collected.length collected).run cursor = .error fault) :
    ∃ pushed middle, Pushes item start pushed middle ∧
      pushed.length < collected.length + count ∧
      (item pushed.length).run middle = .error fault := by
  induction count generalizing collected cursor with
  | zero => cases failed
  | succ count ih =>
      rw [manyFrom, bind_run_error] at failed
      rcases failed with stopped | ⟨value, middle, read, rest⟩
      · refine ⟨collected.reverse, cursor, before, ?_, ?_⟩
        · rw [List.length_reverse]
          omega
        · rwa [List.length_reverse]
      · have pushes : Pushes item start (value :: collected).reverse middle := by
          rw [List.reverse_cons]
          exact before.push (by rwa [List.length_reverse])
        obtain ⟨pushed, last, reached, fewer, stopped⟩ := ih pushes rest
        refine ⟨pushed, last, reached, ?_, stopped⟩
        rw [List.length_cons] at fewer
        omega

theorem pushes_of_many {values : List A} {count : Nat}
    (ran : (many count item).run start = .ok (values, next)) :
    Pushes item start values next ∧ values.length = count := by
  have nothing : Pushes item start ([] : List A).reverse start := .start
  have reached := nothing.manyFrom_ok ran
  rwa [List.length_nil, Nat.zero_add] at reached

theorem pushes_of_many_error {count : Nat} {fault : Fault}
    (failed : (many count item).run start = .error fault) :
    ∃ pushed middle, Pushes item start pushed middle ∧ pushed.length < count ∧
      (item pushed.length).run middle = .error fault := by
  have nothing : Pushes item start ([] : List A).reverse start := .start
  have stopped := nothing.manyFrom_error failed
  rwa [List.length_nil, Nat.zero_add] at stopped

/-- Every item uses up some least number of bytes. -/
def Consumes (least : Nat) (decoder : Decoder A) : Prop :=
  ∀ (cursor next : Cursor) (value : A), decoder.run cursor = .ok (value, next) →
    next.rest.length + least ≤ cursor.rest.length

/-- What has been pushed was there in the bytes. -/
theorem Pushes.length_le {least : Nat} (items : ∀ position, (item position).Consumes least)
    (pushes : Pushes item start pushed cursor) :
    cursor.rest.length + least * pushed.length ≤ start.rest.length := by
  induction pushes with
  | start => simp
  | @push pushed cursor next value before read ih =>
      have used := items _ _ _ _ read
      rw [List.length_append, List.length_singleton, Nat.mul_succ]
      omega

/-- The items that a loop has pushed at any time fit into the bytes that it found. -/
theorem Pushes.length_le_div {least : Nat} (positive : 0 < least)
    (items : ∀ position, (item position).Consumes least)
    (pushes : Pushes item start pushed cursor) :
    pushed.length ≤ start.rest.length / least := by
  have used := pushes.length_le items
  rw [Nat.le_div_iff_mul_le positive, Nat.mul_comm]
  omega

end

/-- All states of a loop, whether it succeeds or fails, hold at most so many items. -/
structure LoopWithin {A : Type} (item : Nat → Decoder A) (count : Nat) (start : Cursor)
    (most : Nat) : Prop where
  states : ∀ pushed cursor, Pushes item start pushed cursor → pushed.length ≤ most
  success : ∀ values next, (many count item).run start = .ok (values, next) →
    Pushes item start values next ∧ values.length = count
  failure : ∀ fault, (many count item).run start = .error fault →
    ∃ pushed cursor, Pushes item start pushed cursor ∧ pushed.length < count ∧
      (item pushed.length).run cursor = .error fault

/-- A loop never holds more items than fit into the bytes that it found, whatever its count is. -/
theorem loopWithin_of_consumes {A : Type} {item : Nat → Decoder A} {least : Nat}
    (positive : 0 < least) (items : ∀ position, (item position).Consumes least) (count : Nat)
    (start : Cursor) : LoopWithin item count start (start.rest.length / least) where
  states _ _ pushes := pushes.length_le_div positive items
  success _ _ ran := pushes_of_many ran
  failure _ failed := pushes_of_many_error failed

end Decoder

end CoinSpend
