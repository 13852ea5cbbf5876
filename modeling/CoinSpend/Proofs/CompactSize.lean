/-
This file states that CompactSize has one form for every value and that only this form is read.
-/

import CoinSpend.CompactSize
import CoinSpend.Proofs.Decoder

namespace CoinSpend.CompactSize

/-- A form carries the numbers below its capacity. -/
def Form.capacity : Form → Nat
  | .bare => 0xfd
  | .short => 0x10000
  | .medium => 0x100000000
  | .long => 0x10000000000000000

/-- The shortest form carries exactly the numbers that can be declared. -/
theorem Form.lt_capacity_of {value : Nat} :
    value < (Form.of value).capacity ↔ value ≤ maxDeclared := by
  unfold Form.of maxDeclared
  split
  · simp only [capacity]
    omega
  · split
    · simp only [capacity]
      omega
    · split <;> simp only [capacity] <;> omega

/-- A tag is one of the three marks, or it is small and carries the value itself. -/
theorem Form.ofTag_cases (tag : UInt8) :
    (tag = 0xfd ∧ Form.ofTag tag = .short) ∨ (tag = 0xfe ∧ Form.ofTag tag = .medium) ∨
      (tag = 0xff ∧ Form.ofTag tag = .long) ∨ (tag.toNat < 0xfd ∧ Form.ofTag tag = .bare) := by
  by_cases short : tag = 0xfd
  · exact .inl ⟨short, by simp [ofTag, short]⟩
  by_cases medium : tag = 0xfe
  · exact .inr (.inl ⟨medium, by simp [ofTag, medium]⟩)
  by_cases long : tag = 0xff
  · exact .inr (.inr (.inl ⟨long, by simp [ofTag, long]⟩))
  refine .inr (.inr (.inr ⟨?_, by simp [ofTag, short, medium, long]⟩))
  have bound := tag.toNat_lt
  have notShort : tag.toNat ≠ 0xfd := fun same => short (UInt8.toNat_inj.mp same)
  have notMedium : tag.toNat ≠ 0xfe := fun same => medium (UInt8.toNat_inj.mp same)
  have notLong : tag.toNat ≠ 0xff := fun same => long (UInt8.toNat_inj.mp same)
  omega

theorem Form.ofTag_of_lt {tag : UInt8} (small : tag.toNat < 0xfd) : Form.ofTag tag = .bare := by
  have unmarked (mark : UInt8) (large : 0xfd ≤ mark.toNat) : tag ≠ mark := by
    intro same
    rw [same] at small
    omega
  rw [ofTag, if_neg (unmarked 0xfd (by decide)), if_neg (unmarked 0xfe (by decide)),
    if_neg (unmarked 0xff (by decide))]

/-- A number behind a mark is read exactly from the mark and the bytes of the number. -/
theorem marked_run_ok {cursor next : Cursor} {mark : UInt8} {field : Field} {width value : Nat} :
    (∃ middle, cursor.Passes [mark] middle ∧
        (Decoder.number field width).run middle = .ok (value, next)) ↔
      value < 256 ^ width ∧ cursor.Passes (mark :: toLittleEndian width value) next := by
  rw [Cursor.passes_cons]
  simp only [(Decoder.number_inverts field width).run_ok]
  apply Iff.intro
  · intro parts
    obtain ⟨middle, first, bound, second⟩ := parts
    exact ⟨bound, middle, first, second⟩
  · intro parts
    obtain ⟨bound, middle, first, second⟩ := parts
    exact ⟨middle, first, bound, second⟩

/-- A value is accepted when the form of its tag is its shortest form. -/
theorem decoder_run_ok {cursor next : Cursor} {value : Nat} :
    decoder.run cursor = .ok (value, next) ↔
      ∃ tag middle, cursor.Passes [tag] middle ∧
        ((Form.ofTag tag).payload tag).run middle = .ok (value, next) ∧
          Form.of value = Form.ofTag tag := by
  rw [decoder, Decoder.run, Decoder.bind_eq, Decoder.bind_run_ok]
  simp only [Decoder.byte_inverts.run_ok, true_and, Decoder.bind_eq, Decoder.bind_run_ok]
  apply Iff.intro
  · intro parts
    obtain ⟨tag, middle, passes, number, after, payload, checked⟩ := parts
    split at checked
    · next shortest =>
        rw [Decoder.pure_eq, Decoder.done_run_ok] at checked
        obtain ⟨rfl, rfl⟩ := checked
        exact ⟨tag, middle, passes, payload, shortest⟩
    · simp [Decoder.run] at checked
  · intro parts
    obtain ⟨tag, middle, passes, payload, shortest⟩ := parts
    refine ⟨tag, middle, passes, value, next, payload, ?_⟩
    rw [if_pos shortest, Decoder.pure_eq, Decoder.done_run_ok]
    exact ⟨rfl, rfl⟩

/-- A value is read exactly from its form, and the shortest form is the only one. -/
theorem decoder_inverts : decoder.Inverts encode fun value => value ≤ maxDeclared := by
  intro cursor next value
  change _ ↔ value ≤ maxDeclared ∧ _
  rw [decoder_run_ok, ← Form.lt_capacity_of]
  apply Iff.intro
  · intro parts
    obtain ⟨tag, middle, passes, payload, shortest⟩ := parts
    rw [encode, shortest]
    rcases Form.ofTag_cases tag with ⟨rfl, kind⟩ | ⟨rfl, kind⟩ | ⟨rfl, kind⟩ | ⟨small, kind⟩
    · rw [kind] at payload ⊢
      exact marked_run_ok.mp ⟨middle, passes, payload⟩
    · rw [kind] at payload ⊢
      exact marked_run_ok.mp ⟨middle, passes, payload⟩
    · rw [kind] at payload ⊢
      exact marked_run_ok.mp ⟨middle, passes, payload⟩
    · rw [kind] at payload ⊢
      rw [Form.payload, Decoder.pure_eq, Decoder.done_run_ok] at payload
      obtain ⟨rfl, rfl⟩ := payload
      refine ⟨small, ?_⟩
      have low : tag.toNat % 256 = tag.toNat := Nat.mod_eq_of_lt tag.toNat_lt
      simpa [Form.encode, toLittleEndian, low] using passes
  · intro parts
    obtain ⟨bound, passes⟩ := parts
    rw [encode] at passes
    cases kind : Form.of value with
    | bare =>
        rw [kind] at bound passes
        have small : value < 256 := Nat.lt_trans bound (by decide)
        have number : (UInt8.ofNat value).toNat = value := UInt8.toNat_ofNat_of_lt' small
        have tag : Form.ofTag (UInt8.ofNat value) = .bare :=
          Form.ofTag_of_lt (by rwa [number])
        refine ⟨UInt8.ofNat value, next, ?_, ?_, tag.symm⟩
        · simpa [Form.encode, toLittleEndian, Nat.mod_eq_of_lt small] using passes
        · rw [tag, Form.payload, Decoder.pure_eq, Decoder.done_run_ok, number]
          exact ⟨rfl, rfl⟩
    | short =>
        rw [kind] at bound passes
        obtain ⟨middle, mark, payload⟩ := marked_run_ok.mpr ⟨bound, passes⟩
        exact ⟨0xfd, middle, mark, payload, rfl⟩
    | medium =>
        rw [kind] at bound passes
        obtain ⟨middle, mark, payload⟩ := marked_run_ok.mpr ⟨bound, passes⟩
        exact ⟨0xfe, middle, mark, payload, rfl⟩
    | long =>
        rw [kind] at bound passes
        obtain ⟨middle, mark, payload⟩ := marked_run_ok.mpr ⟨bound, passes⟩
        exact ⟨0xff, middle, mark, payload, rfl⟩

end CoinSpend.CompactSize
