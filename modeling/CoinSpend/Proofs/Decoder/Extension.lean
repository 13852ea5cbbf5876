/-
This file states what more bytes behind the ones that are there can change about a run: only a run
that lacked bytes.
-/

import CoinSpend.Proofs.Decoder

namespace CoinSpend

/-- More bytes stand behind the ones that the cursor has. -/
def Cursor.extend (cursor : Cursor) (suffix : Bytes) : Cursor :=
  ⟨cursor.rest ++ suffix, cursor.offset⟩

theorem Cursor.at_extend (bytes suffix : Bytes) :
    (Cursor.at bytes 0).extend suffix = Cursor.at (bytes ++ suffix) 0 := rfl

theorem Cursor.Passes.extend {cursor next : Cursor} {bytes : Bytes}
    (passes : cursor.Passes bytes next) (suffix : Bytes) :
    (cursor.extend suffix).Passes bytes (next.extend suffix) where
  found := by
    simp only [Cursor.extend]
    rw [passes.found, List.append_assoc]
  behind := passes.behind

/-- A decoder reports shortages by one kind of faults and refuses what it has read by another. -/
def Decoder.Reports {A : Type} (short definite : Fault → Prop) : Decoder A → Prop
  | .done _ => True
  | .fail fault => definite fault
  | .locate next => ∀ offset, (next offset).Reports short definite
  | .take _ shortage next =>
      (∀ offset available, short (shortage offset available)) ∧
        ∀ octets, (next octets).Reports short definite

section

variable {A B : Type} {short definite : Fault → Prop}

theorem Decoder.Reports.bind {decoder : Decoder A} {after : A → Decoder B}
    (first : decoder.Reports short definite)
    (second : ∀ value, (after value).Reports short definite) :
    (decoder.bind after).Reports short definite := by
  induction decoder with
  | done value => exact second value
  | fail fault => exact first
  | locate next ih =>
      intro offset
      exact ih offset (first offset)
  | take size shortage next ih => exact ⟨first.1, fun octets => ih octets (first.2 octets)⟩

theorem Decoder.Reports.manyFrom {item : Nat → Decoder A}
    (items : ∀ position, (item position).Reports short definite) (count position : Nat)
    (collected : List A) : (manyFrom item count position collected).Reports short definite := by
  induction count generalizing position collected with
  | zero => trivial
  | succ count ih => exact (items position).bind fun value => ih _ _

theorem Decoder.Reports.many {item : Nat → Decoder A}
    (items : ∀ position, (item position).Reports short definite) (count : Nat) :
    (many count item).Reports short definite :=
  manyFrom items count 0 []

/-- A run that succeeds reads the same and leaves what is added. -/
theorem Decoder.run_extend {decoder : Decoder A} {cursor next : Cursor} {value : A}
    (success : decoder.run cursor = .ok (value, next)) (suffix : Bytes) :
    decoder.run (cursor.extend suffix) = .ok (value, next.extend suffix) := by
  induction decoder generalizing cursor with
  | done result =>
      obtain ⟨rfl, rfl⟩ := done_run_ok.mp success
      rfl
  | fail fault => cases success
  | locate after ih => exact ih cursor.offset success
  | take size shortage after ih =>
      obtain ⟨octets, middle, passes, rest⟩ := take_run_ok.mp success
      exact take_run_ok.mpr ⟨octets, _, passes.extend suffix, ih octets rest⟩

/-- A run that fails lacked bytes, or no further bytes can help it. -/
theorem Decoder.Reports.run_error {decoder : Decoder A} (reports : decoder.Reports short definite)
    {cursor : Cursor} {fault : Fault} (failed : decoder.run cursor = .error fault) :
    short fault ∨
      (definite fault ∧ ∀ suffix, decoder.run (cursor.extend suffix) = .error fault) := by
  induction decoder generalizing cursor with
  | done value => cases failed
  | fail other =>
      cases failed
      exact .inr ⟨reports, fun suffix => rfl⟩
  | locate next ih => exact ih cursor.offset (reports cursor.offset) failed
  | take size shortage next ih =>
      rcases cursor.passes_or_short size with ⟨octets, middle, passes⟩ | lacks
      · rw [take_run_passes passes] at failed
        rcases ih octets (reports.2 octets) failed with lacking | ⟨kind, settled⟩
        · exact .inl lacking
        · refine .inr ⟨kind, fun suffix => ?_⟩
          rw [take_run_passes (passes.extend suffix)]
          exact settled suffix
      · rw [take_run_short lacks] at failed
        cases failed
        exact .inl (reports.1 _ _)

/-- Where a decoder has used up all bytes, those that are added are left over. -/
theorem Decoder.runAll_extend_ok {decoder : Decoder A} {excess : Nat → Fault} {bytes : Bytes}
    {value : A} (accepted : decoder.runAll excess bytes = .ok value) {suffix : Bytes}
    (more : suffix ≠ []) :
    decoder.runAll excess (bytes ++ suffix) = .error (excess suffix.length) := by
  obtain ⟨last, ran, nothing⟩ := runAll_eq_ok.mp accepted
  have left : (last.extend suffix).rest = suffix := by
    rw [Cursor.extend, nothing, List.nil_append]
  have nonempty : ¬ (suffix.isEmpty = true) := by simpa using more
  rw [runAll, ← Cursor.at_extend, run_extend ran suffix]
  simp only [left, if_neg nonempty]

/-- Where a decoder fails it lacked bytes, refused what it had read, or counted what was left over;
added bytes can help only in the first case, and in the last one they are counted too. -/
theorem Decoder.Reports.runAll_error {decoder : Decoder A}
    (reports : decoder.Reports short definite) {excess : Nat → Fault} {bytes : Bytes}
    {fault : Fault} (refused : decoder.runAll excess bytes = .error fault) :
    short fault ∨
      (definite fault ∧
        ∀ suffix, decoder.runAll excess (bytes ++ suffix) = .error fault) ∨
      ∃ count, fault = excess count ∧
        ∀ suffix, decoder.runAll excess (bytes ++ suffix) =
          .error (excess (count + suffix.length)) := by
  rw [runAll] at refused
  split at refused
  · next failed =>
      cases refused
      rcases reports.run_error failed with lacking | ⟨kind, settled⟩
      · exact .inl lacking
      · refine .inr (.inl ⟨kind, fun suffix => ?_⟩)
        rw [runAll, ← Cursor.at_extend, settled suffix]
  · next result cursor ran =>
      split at refused
      · cases refused
      · next left =>
          cases refused
          refine .inr (.inr ⟨cursor.rest.length, rfl, fun suffix => ?_⟩)
          have more : ¬ ((cursor.extend suffix).rest.isEmpty = true) := by
            intro nothing
            have empty := (List.append_eq_nil_iff.mp (List.isEmpty_iff.mp nothing)).1
            exact left (List.isEmpty_iff.mpr empty)
          have counted : (cursor.extend suffix).rest.length =
              cursor.rest.length + suffix.length := List.length_append
          rw [runAll, ← Cursor.at_extend, run_extend ran suffix]
          simp only [if_neg more, counted]

end

end CoinSpend
