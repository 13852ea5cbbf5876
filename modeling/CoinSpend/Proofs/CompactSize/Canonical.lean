/-
This file states what is read as a value at any offset, and how everything else is refused there.
-/

import CoinSpend.Proofs.CompactSize

namespace CoinSpend.CompactSize

/-- A mark is a tag that announces a number of some width behind it. -/
structure Mark where
  tag : UInt8
  field : Field
  width : Nat
deriving DecidableEq

/-- Every form but the bare one starts with its mark. -/
def Form.mark : Form → Option Mark
  | .bare => none
  | .short => some ⟨0xfd, .word16, 2⟩
  | .medium => some ⟨0xfe, .word32, 4⟩
  | .long => some ⟨0xff, .word64, 8⟩

section

variable {form : Form} {mark : Mark}

theorem Form.encode_of_mark (marked : form.mark = some mark) (value : Nat) :
    form.encode value = mark.tag :: toLittleEndian mark.width value := by
  cases form <;> cases marked <;> rfl

theorem Form.payload_of_mark (marked : form.mark = some mark) (tag : UInt8) :
    form.payload tag = Decoder.number mark.field mark.width := by
  cases form <;> cases marked <;> rfl

theorem Form.capacity_of_mark (marked : form.mark = some mark) :
    form.capacity = 256 ^ mark.width := by
  cases form <;> cases marked <;> rfl

theorem Form.ofTag_of_mark (marked : form.mark = some mark) : Form.ofTag mark.tag = form := by
  cases form <;> cases marked <;> rfl

end

/-- A tag that is no mark is small. -/
theorem Form.mark_ofTag (tag : UInt8) :
    (∃ mark, (Form.ofTag tag).mark = some mark ∧ mark.tag = tag) ∨
      (tag.toNat < 0xfd ∧ Form.ofTag tag = .bare) := by
  rcases ofTag_cases tag with ⟨rfl, kind⟩ | ⟨rfl, kind⟩ | ⟨rfl, kind⟩ | bare
  · exact .inl ⟨⟨0xfd, .word16, 2⟩, by rw [kind]; rfl, rfl⟩
  · exact .inl ⟨⟨0xfe, .word32, 4⟩, by rw [kind]; rfl, rfl⟩
  · exact .inl ⟨⟨0xff, .word64, 8⟩, by rw [kind]; rfl, rfl⟩
  · exact .inr bare

theorem Form.length_encode (form : Form) (value : Nat) :
    (form.encode value).length = form.size := by
  cases form <;> simp [encode, size]

/-- Among the forms that can carry a value, none is shorter than the chosen one. -/
theorem Form.size_of_le {form : Form} {value : Nat} (carries : value < form.capacity) :
    (Form.of value).size ≤ form.size := by
  unfold Form.of
  cases form with
  | bare =>
      have small : value < 0xfd := carries
      simp only [if_pos small, size, Nat.le_refl]
  | short =>
      have small : value < 0x10000 := carries
      rw [if_pos small]
      split <;> decide
  | medium =>
      have small : value < 0x100000000 := carries
      rw [if_pos small]
      split
      · decide
      · split <;> decide
  | long =>
      split
      · decide
      · split
        · decide
        · split <;> decide

theorem Form.size_inj {form other : Form} (same : form.size = other.size) : form = other := by
  cases form <;> cases other <;> simp_all [size]

/-- All other forms that can carry the value are longer. -/
theorem Form.size_of_lt {form : Form} {value : Nat} (carries : value < form.capacity)
    (other : form ≠ Form.of value) : (Form.of value).size < form.size := by
  apply Nat.lt_of_le_of_ne (size_of_le carries)
  intro same
  exact other (size_inj same).symm

/-- A read finds a value in its shortest form, a value in a longer form, no tag, or a mark without
all of its number. -/
inductive Reading (bytes : Bytes) (offset : Nat) : Except Fault Item → Prop where
  | canonical {value : Nat} (declarable : value ≤ maxDeclared) (inside : offset ≤ bytes.length)
      (found : encode value <+: bytes.drop offset) :
      Reading bytes offset (.ok ⟨value, (encode value).length⟩)
  | overlong {form : Form} {mark : Mark} {value : Nat} (marked : form.mark = some mark)
      (carries : value < form.capacity) (found : form.encode value <+: bytes.drop offset)
      (longer : (encode value).length < (form.encode value).length) :
      Reading bytes offset (.error (.nonMinimal value offset))
  | missing (beyond : bytes.length ≤ offset) :
      Reading bytes offset (.error (.unexpectedEnd .byte 1 offset 0))
  | incomplete {form : Form} {mark : Mark} (marked : form.mark = some mark)
      (found : bytes[offset]? = some mark.tag) (short : bytes.length < offset + 1 + mark.width) :
      Reading bytes offset (.error (.unexpectedEnd mark.field mark.width (offset + 1)
        (bytes.length - (offset + 1))))

section

variable {bytes : Bytes} {offset : Nat}

theorem readAt_of_run {value : Nat} {next : Cursor}
    (ran : decoder.run (Cursor.at bytes offset) = .ok (value, next)) :
    readAt bytes offset = .ok ⟨value, next.offset - offset⟩ := by
  rw [readAt, readNext, ran]
  rfl

theorem readAt_of_run_error {fault : Fault}
    (ran : decoder.run (Cursor.at bytes offset) = .error fault) :
    readAt bytes offset = .error fault := by
  rw [readAt, readNext, ran]
  rfl

/-- Behind the tag its form decides what is read and whether the value may stand there. -/
theorem decoder_run_tag {cursor middle : Cursor} {tag : UInt8}
    (passes : cursor.Passes [tag] middle) :
    decoder.run cursor =
      match ((Form.ofTag tag).payload tag).run middle with
      | .error fault => .error fault
      | .ok (value, next) =>
          if Form.of value = Form.ofTag tag then .ok (value, next)
          else .error (.nonMinimal value cursor.offset) := by
  have read : Decoder.byte.run cursor = .ok (tag, middle) :=
    Decoder.byte_inverts.run_ok.mpr ⟨trivial, passes⟩
  rw [decoder, Decoder.run, Decoder.bind_eq, Decoder.run_bind, read]
  simp only [Decoder.bind_eq, Decoder.run_bind]
  cases ((Form.ofTag tag).payload tag).run middle with
  | error fault => rfl
  | ok pair =>
      obtain ⟨value, next⟩ := pair
      simp only
      split <;> rfl

/-- Where nothing is left, the tag is missing. -/
theorem decoder_run_missing {cursor : Cursor} (nothing : cursor.rest = []) :
    decoder.run cursor = .error (.unexpectedEnd .byte 1 cursor.offset 0) := by
  have short : cursor.rest.length < 1 := by simp [nothing]
  have failed : (Decoder.number .byte 1).run cursor =
      .error (.unexpectedEnd .byte 1 cursor.offset cursor.rest.length) :=
    Decoder.take_run_short short
  rw [decoder, Decoder.run, Decoder.bind_eq, Decoder.run_bind, Decoder.byte, Decoder.bind_eq,
    Decoder.run_bind, failed, nothing]
  rfl

theorem drop_of_getElem? {tag : UInt8} (found : bytes[offset]? = some tag) :
    bytes.drop offset = tag :: bytes.drop (offset + 1) := by
  obtain ⟨inside, rfl⟩ := List.getElem?_eq_some_iff.mp found
  exact List.drop_eq_getElem_cons inside

/-- A mark is passed over like any other tag. -/
theorem passes_mark {tag : UInt8} (found : bytes[offset]? = some tag) :
    (Cursor.at bytes offset).Passes [tag] (Cursor.at bytes (offset + 1)) :=
  ⟨drop_of_getElem? found, rfl⟩

/-- Every reading is the result where it applies. -/
theorem readAt_of_reading {outcome : Except Fault Item} (reading : Reading bytes offset outcome) :
    readAt bytes offset = outcome := by
  cases reading with
  | canonical declarable inside found =>
      obtain ⟨next, passes⟩ := (Cursor.at bytes offset).exists_passes found
      have behind : next.offset - offset = (encode _).length :=
        Nat.sub_eq_of_eq_add' passes.behind
      rw [readAt_of_run (decoder_inverts.run_ok.mpr ⟨declarable, passes⟩), behind]
  | @overlong form mark value marked carries found longer =>
      obtain ⟨next, passes⟩ := (Cursor.at bytes offset).exists_passes found
      rw [Form.encode_of_mark marked, Cursor.passes_cons] at passes
      obtain ⟨middle, tag, number⟩ := passes
      have read : (Decoder.number mark.field mark.width).run middle = .ok (value, next) :=
        (Decoder.number_inverts _ _).run_ok.mpr ⟨by rwa [← Form.capacity_of_mark marked], number⟩
      have other : ¬ Form.of value = form := by
        intro same
        rw [encode, same] at longer
        exact Nat.lt_irrefl _ longer
      apply readAt_of_run_error
      rw [decoder_run_tag tag, Form.ofTag_of_mark marked, Form.payload_of_mark marked, read]
      simp only [if_neg other]
      rfl
  | missing beyond =>
      exact readAt_of_run_error (decoder_run_missing (List.drop_eq_nil_iff.mpr beyond))
  | @incomplete form mark marked found short =>
      have inside : offset < bytes.length := (List.getElem?_eq_some_iff.mp found).1
      have left : (Cursor.at bytes (offset + 1)).rest.length = bytes.length - (offset + 1) :=
        List.length_drop
      have failed : (Decoder.number mark.field mark.width).run (Cursor.at bytes (offset + 1)) =
          .error (.unexpectedEnd mark.field mark.width (offset + 1)
            (Cursor.at bytes (offset + 1)).rest.length) :=
        Decoder.take_run_short (by omega)
      apply readAt_of_run_error
      rw [decoder_run_tag (passes_mark found), Form.ofTag_of_mark marked,
        Form.payload_of_mark marked, failed, left]

/-- Behind a mark there are too few bytes, or they are the number of the value. -/
theorem reading_of_mark {form : Form} {mark : Mark} (marked : form.mark = some mark)
    (found : bytes[offset]? = some mark.tag) : ∃ outcome, Reading bytes offset outcome := by
  have inside : offset < bytes.length := (List.getElem?_eq_some_iff.mp found).1
  by_cases short : bytes.length < offset + 1 + mark.width
  · exact ⟨_, .incomplete marked found short⟩
  · let number := (bytes.drop (offset + 1)).take mark.width
    have sized : number.length = mark.width := by
      simp only [number, List.length_take, List.length_drop]
      omega
    have written : toLittleEndian mark.width (ofLittleEndian number) = number := by
      rw [← sized, toLittleEndian_ofLittleEndian]
    have carries : ofLittleEndian number < form.capacity := by
      rw [Form.capacity_of_mark marked, ← sized]
      exact ofLittleEndian_lt number
    have start : form.encode (ofLittleEndian number) <+: bytes.drop offset := by
      rw [Form.encode_of_mark marked, written, drop_of_getElem? found, List.cons_prefix_cons]
      exact ⟨rfl, List.take_prefix _ _⟩
    by_cases shortest : form = Form.of (ofLittleEndian number)
    · rw [shortest] at carries start
      exact ⟨_, .canonical (Form.lt_capacity_of.mp carries) (Nat.le_of_lt inside) start⟩
    · have longer := Form.size_of_lt carries shortest
      rw [← Form.length_encode _ (ofLittleEndian number), ← form.length_encode] at longer
      exact ⟨_, .overlong marked carries start longer⟩

/-- The readings leave no bytes and no offset out. -/
theorem exists_reading (bytes : Bytes) (offset : Nat) :
    ∃ outcome, Reading bytes offset outcome := by
  cases found : bytes[offset]? with
  | none => exact ⟨_, .missing (List.getElem?_eq_none_iff.mp found)⟩
  | some tag =>
      rcases Form.mark_ofTag tag with ⟨mark, marked, rfl⟩ | ⟨small, -⟩
      · exact reading_of_mark marked found
      · have shortest : Form.of tag.toNat = .bare := if_pos small
        have start : encode tag.toNat <+: bytes.drop offset := by
          rw [encode, shortest, drop_of_getElem? found]
          simp [Form.encode, toLittleEndian]
        have inside : offset < bytes.length := (List.getElem?_eq_some_iff.mp found).1
        have declarable : tag.toNat ≤ maxDeclared := Nat.le_trans (Nat.le_of_lt small) (by decide)
        exact ⟨_, .canonical declarable (Nat.le_of_lt inside) start⟩

theorem readAt_eq_iff_reading {outcome : Except Fault Item} :
    readAt bytes offset = outcome ↔ Reading bytes offset outcome := by
  constructor
  · rintro rfl
    obtain ⟨outcome, reading⟩ := exists_reading bytes offset
    rwa [readAt_of_reading reading]
  · exact readAt_of_reading

end

/-- A value that can be declared is written in one of the forms that can carry it, and every other
one of these is longer. -/
theorem encode_shortest {value : Nat} (declarable : value ≤ maxDeclared) :
    ∃ form, value < Form.capacity form ∧ encode value = form.encode value ∧
      ∀ other, value < Form.capacity other → other ≠ form →
        (form.encode value).length < (other.encode value).length := by
  refine ⟨Form.of value, Form.lt_capacity_of.mpr declarable, rfl, ?_⟩
  intro other carries different
  rw [Form.length_encode, Form.length_encode]
  exact Form.size_of_lt carries different

/-- At any offset exactly the shortest form of a value is read as the value. A longer form is
refused with its value, and a form that is cut short with the bytes that are needed and left. -/
theorem readAt_canonical (bytes : Bytes) (offset : Nat) :
    (∀ value used, readAt bytes offset = .ok ⟨value, used⟩ ↔
      value ≤ maxDeclared ∧ offset ≤ bytes.length ∧ encode value <+: bytes.drop offset ∧
        used = (encode value).length ∧ used = size value) ∧
    (∀ value start, readAt bytes offset = .error (.nonMinimal value start) ↔
      start = offset ∧ ∃ form mark, Form.mark form = some mark ∧ value < form.capacity ∧
        form.encode value <+: bytes.drop offset ∧
        (encode value).length < (form.encode value).length) ∧
    (∀ field needed start available,
      readAt bytes offset = .error (.unexpectedEnd field needed start available) ↔
        (bytes.length ≤ offset ∧ field = .byte ∧ needed = 1 ∧ start = offset ∧ available = 0) ∨
        ∃ form mark, Form.mark form = some mark ∧ bytes[offset]? = some mark.tag ∧
          bytes.length < offset + 1 + mark.width ∧ field = mark.field ∧ needed = mark.width ∧
          start = offset + 1 ∧ available = bytes.length - (offset + 1)) ∧
    (∀ fault, readAt bytes offset = .error fault →
      (∃ value, fault = .nonMinimal value offset) ∨
        ∃ field needed start available, fault = .unexpectedEnd field needed start available) ∧
    (∀ value start, (Fault.nonMinimal value start).code.label = "TX_ERR_PARSE" ∧
      (Fault.nonMinimal value start).message =
        s!"non-minimal CompactSize {value} at offset {start}") ∧
    (∀ field needed start available,
      (Fault.unexpectedEnd field needed start available).code.label = "TX_ERR_PARSE" ∧
      (Fault.unexpectedEnd field needed start available).message =
        "unexpected EOF (" ++ field.label ++
          s!"): need {needed} bytes at offset {start}, have {available}") ∧
    (∀ value ≤ maxDeclared, ∃ form, value < Form.capacity form ∧
      encode value = form.encode value ∧
      ∀ other, value < Form.capacity other → other ≠ form →
        (form.encode value).length < (other.encode value).length) := by
  simp only [readAt_eq_iff_reading]
  refine ⟨?_, ?_, ?_, ?_, fun _ _ => ⟨rfl, rfl⟩, fun _ _ _ _ => ⟨rfl, rfl⟩,
    fun value declarable => encode_shortest declarable⟩
  · intro value used
    constructor
    · intro reading
      cases reading with
      | canonical declarable inside found =>
          exact ⟨declarable, inside, found, rfl, length_encode value⟩
    · rintro ⟨declarable, inside, found, rfl, -⟩
      exact .canonical declarable inside found
  · intro value start
    constructor
    · intro reading
      cases reading with
      | overlong marked carries found longer =>
          exact ⟨rfl, _, _, marked, carries, found, longer⟩
    · rintro ⟨rfl, form, mark, marked, carries, found, longer⟩
      exact .overlong marked carries found longer
  · intro field needed start available
    constructor
    · intro reading
      cases reading with
      | missing beyond => exact .inl ⟨beyond, rfl, rfl, rfl, rfl⟩
      | incomplete marked found short =>
          exact .inr ⟨_, _, marked, found, short, rfl, rfl, rfl, rfl⟩
    · rintro (⟨beyond, rfl, rfl, rfl, rfl⟩ | ⟨form, mark, marked, found, short, rfl, rfl, rfl, rfl⟩)
      · exact .missing beyond
      · exact .incomplete marked found short
  · intro fault reading
    cases reading with
    | overlong marked carries found longer => exact .inl ⟨_, rfl⟩
    | missing beyond => exact .inr ⟨_, _, _, _, rfl⟩
    | incomplete marked found short => exact .inr ⟨_, _, _, _, rfl⟩

/-- The number behind the mark fits a tag, a mark at the end lacks its number, and far behind the
end there is no tag. -/
theorem readAt_shifted :
    readAt [0x01, 0xfd, 0xfc, 0x00] 1 = .error (.nonMinimal 0xfc 1) ∧
      readAt [0x01, 0xfd, 0xfd, 0x00] 1 = .ok ⟨0xfd, 3⟩ ∧
      readAt [0x00, 0xff] 1 = .error (.unexpectedEnd .word64 8 2 0) ∧
      readAt [0xff] maxDeclared = .error (.unexpectedEnd .byte 1 maxDeclared 0) :=
  ⟨((readAt_canonical _ _).2.1 _ _).mpr
      ⟨rfl, .short, ⟨0xfd, .word16, 2⟩, rfl, by decide, by decide, by decide⟩,
    ((readAt_canonical _ _).1 _ _).mpr ⟨by decide, by decide, by decide, by decide, by decide⟩,
    ((readAt_canonical _ _).2.2.1 _ _ _ _).mpr
      (.inr ⟨.long, ⟨0xff, .word64, 8⟩, rfl, rfl, by decide, rfl, rfl, rfl, rfl⟩),
    ((readAt_canonical _ _).2.2.1 _ _ _ _).mpr (.inl ⟨by decide, rfl, rfl, rfl, rfl⟩)⟩

end CoinSpend.CompactSize
