/-
This file states which bytes a decoder accepts: exactly the written forms of its legal values.
-/

import CoinSpend.Bytes.Lemmas
import CoinSpend.Decoder

namespace CoinSpend

/-- A cursor passes over bytes when it finds them and then stands behind them. -/
structure Cursor.Passes (cursor : Cursor) (bytes : Bytes) (next : Cursor) : Prop where
  found : cursor.rest = bytes ++ next.rest
  behind : next.offset = cursor.offset + bytes.length

theorem Cursor.ext {left right : Cursor} (sameRest : left.rest = right.rest)
    (sameOffset : left.offset = right.offset) : left = right := by
  cases left
  cases right
  cases sameRest
  cases sameOffset
  rfl

@[simp] theorem Cursor.passes_nil {cursor next : Cursor} :
    cursor.Passes [] next ↔ next = cursor := by
  apply Iff.intro
  · intro passes
    exact Cursor.ext (by simpa using passes.found.symm) (by simpa using passes.behind)
  · intro same
    rw [same]
    exact ⟨rfl, rfl⟩

/-- Passing over a concatenation is passing over its two parts one after the other. -/
theorem Cursor.passes_append {cursor next : Cursor} {first second : Bytes} :
    cursor.Passes (first ++ second) next ↔
      ∃ middle : Cursor, cursor.Passes first middle ∧ middle.Passes second next := by
  apply Iff.intro
  · intro passes
    refine ⟨⟨second ++ next.rest, cursor.offset + first.length⟩, ⟨?_, rfl⟩, ⟨rfl, ?_⟩⟩
    · rw [passes.found, List.append_assoc]
    · rw [passes.behind, List.length_append, Nat.add_assoc]
  · intro parts
    obtain ⟨middle, ⟨found, behind⟩, ⟨foundAfter, behindAfter⟩⟩ := parts
    refine ⟨?_, ?_⟩
    · rw [found, foundAfter, List.append_assoc]
    · rw [behindAfter, behind, List.length_append, Nat.add_assoc]

theorem Cursor.passes_cons {cursor next : Cursor} {byte : UInt8} {rest : Bytes} :
    cursor.Passes (byte :: rest) next ↔
      ∃ middle : Cursor, cursor.Passes [byte] middle ∧ middle.Passes rest next :=
  @Cursor.passes_append cursor next [byte] rest

/-- A cursor passes over all bytes from the start exactly when nothing is left. -/
theorem Cursor.passes_all {bytes written : Bytes} {next : Cursor} (nothing : next.rest = []) :
    (Cursor.at bytes 0).Passes written next ↔ bytes = written ∧ next.offset = bytes.length := by
  apply Iff.intro
  · intro parts
    obtain ⟨found, behind⟩ := parts
    have same : bytes = written := by simpa [Cursor.at, nothing] using found
    exact ⟨same, by simpa [Cursor.at, same] using behind⟩
  · intro parts
    obtain ⟨rfl, behind⟩ := parts
    exact ⟨by simp [Cursor.at, nothing], by simp [Cursor.at, behind]⟩

theorem Decoder.bind_eq {A B : Type} (decoder : Decoder A) (after : A → Decoder B) :
    (decoder >>= after) = decoder.bind after := rfl

theorem Decoder.pure_eq {A : Type} (value : A) : (pure value : Decoder A) = .done value := rfl

theorem Decoder.done_run_ok {A : Type} {value result : A} {cursor next : Cursor} :
    (Decoder.done value).run cursor = .ok (result, next) ↔ result = value ∧ next = cursor := by
  rw [run, Except.ok.injEq, Prod.mk.injEq, eq_comm, eq_comm (a := cursor)]

/-- A joined decoder succeeds exactly when both of its parts do. -/
theorem Decoder.bind_run_ok {A B : Type} {decoder : Decoder A} {after : A → Decoder B}
    {cursor next : Cursor} {result : B} :
    (decoder.bind after).run cursor = .ok (result, next) ↔
      ∃ value middle, decoder.run cursor = .ok (value, middle) ∧
        (after value).run middle = .ok (result, next) := by
  rw [run_bind]
  cases ran : decoder.run cursor with
  | error fault => simp
  | ok pair =>
      obtain ⟨first, middle⟩ := pair
      apply Iff.intro
      · intro success
        exact ⟨first, middle, rfl, success⟩
      · intro parts
        obtain ⟨value, other, same, success⟩ := parts
        cases same
        exact success

/-- A joined decoder fails as its first part does, or as its second part does afterwards. -/
theorem Decoder.bind_run_error {A B : Type} {decoder : Decoder A} {after : A → Decoder B}
    {cursor : Cursor} {fault : Fault} :
    (decoder.bind after).run cursor = .error fault ↔
      decoder.run cursor = .error fault ∨
        ∃ value middle, decoder.run cursor = .ok (value, middle) ∧
          (after value).run middle = .error fault := by
  rw [run_bind]
  cases ran : decoder.run cursor with
  | error other => simp
  | ok pair =>
      obtain ⟨first, middle⟩ := pair
      apply Iff.intro
      · intro failure
        exact .inr ⟨first, middle, rfl, failure⟩
      · intro failed
        cases failed with
        | inl failure => cases failure
        | inr later =>
            obtain ⟨value, other, same, failure⟩ := later
            cases same
            exact failure

/-- A cursor passes over what it starts with. -/
theorem Cursor.exists_passes (cursor : Cursor) {bytes : Bytes} (found : bytes <+: cursor.rest) :
    ∃ next : Cursor, cursor.Passes bytes next := by
  obtain ⟨rest, parts⟩ := found
  exact ⟨⟨rest, cursor.offset + bytes.length⟩, parts.symm, rfl⟩

/-- A cursor passes over a block of the wanted size, or it has fewer bytes. -/
theorem Cursor.passes_or_short (cursor : Cursor) (size : Nat) :
    (∃ (octets : Octets size) (middle : Cursor), cursor.Passes octets.bytes middle) ∨
      cursor.rest.length < size := by
  by_cases complete : (cursor.rest.take size).length = size
  · left
    refine ⟨⟨cursor.rest.take size, complete⟩, cursor.advance size, ?_, ?_⟩
    · exact (List.take_append_drop size cursor.rest).symm
    · simp only [Cursor.advance, complete]
  · right
    rw [List.length_take] at complete
    omega

/-- A block that the cursor can pass over is taken. -/
theorem Decoder.take_run_passes {A : Type} {size : Nat} {shortage : Nat → Nat → Fault}
    {after : Octets size → Decoder A} {cursor middle : Cursor} {octets : Octets size}
    (passes : cursor.Passes octets.bytes middle) :
    (Decoder.take size shortage after).run cursor = (after octets).run middle := by
  have front : cursor.rest.take size = octets.bytes := by
    rw [passes.found, List.take_left' octets.length_eq]
  have back : cursor.rest.drop size = middle.rest := by
    rw [passes.found, List.drop_left' octets.length_eq]
  have complete : (cursor.rest.take size).length = size := by rw [front, octets.length_eq]
  have block : (⟨cursor.rest.take size, complete⟩ : Octets size) = octets := Octets.ext front
  have moved : cursor.advance size = middle :=
    Cursor.ext back (by rw [passes.behind, octets.length_eq]; rfl)
  rw [run, dif_pos complete, block, moved]

/-- A block that is not there in full is reported with the offset and the bytes that are left. -/
theorem Decoder.take_run_short {A : Type} {size : Nat} {shortage : Nat → Nat → Fault}
    {after : Octets size → Decoder A} {cursor : Cursor} (short : cursor.rest.length < size) :
    (Decoder.take size shortage after).run cursor =
      .error (shortage cursor.offset cursor.rest.length) := by
  have incomplete : ¬ (cursor.rest.take size).length = size := by
    rw [List.length_take]
    omega
  rw [run, dif_neg incomplete]

/-- A block is taken exactly when the cursor can pass over it. -/
theorem Decoder.take_run_ok {A : Type} {size : Nat} {shortage : Nat → Nat → Fault}
    {after : Octets size → Decoder A} {cursor next : Cursor} {result : A} :
    (Decoder.take size shortage after).run cursor = .ok (result, next) ↔
      ∃ (octets : Octets size) (middle : Cursor), cursor.Passes octets.bytes middle ∧
        (after octets).run middle = .ok (result, next) := by
  apply Iff.intro
  · intro success
    rcases cursor.passes_or_short size with ⟨octets, middle, passes⟩ | short
    · rw [take_run_passes passes] at success
      exact ⟨octets, middle, passes, success⟩
    · rw [take_run_short short] at success
      cases success
  · intro parts
    obtain ⟨octets, middle, passes, success⟩ := parts
    rw [take_run_passes passes, success]

/-- All faults of a decoder satisfy a condition. -/
def Decoder.FailsOnly {A : Type} (decoder : Decoder A) (possible : Fault → Prop) : Prop :=
  ∀ (cursor : Cursor) (fault : Fault), decoder.run cursor = .error fault → possible fault

theorem Decoder.done_failsOnly {A : Type} (value : A) (possible : Fault → Prop) :
    (Decoder.done value).FailsOnly possible := by
  intro cursor fault failed
  cases failed

theorem Decoder.fail_failsOnly {A : Type} {fault : Fault} {possible : Fault → Prop}
    (admitted : possible fault) : (Decoder.fail fault : Decoder A).FailsOnly possible := by
  intro cursor other failed
  cases failed
  exact admitted

theorem Decoder.take_failsOnly {A : Type} {size : Nat} {shortage : Nat → Nat → Fault}
    {after : Octets size → Decoder A} {possible : Fault → Prop}
    (short : ∀ offset available, possible (shortage offset available))
    (rest : ∀ octets, (after octets).FailsOnly possible) :
    (Decoder.take size shortage after).FailsOnly possible := by
  intro cursor fault failed
  rw [run] at failed
  split at failed
  · exact rest _ _ _ failed
  · cases failed
    exact short _ _

theorem Decoder.bind_failsOnly {A B : Type} {decoder : Decoder A} {after : A → Decoder B}
    {possible : Fault → Prop} (first : decoder.FailsOnly possible)
    (second : ∀ value, (after value).FailsOnly possible) :
    (decoder.bind after).FailsOnly possible := by
  intro cursor fault failed
  rcases bind_run_error.mp failed with firstFailed | ⟨value, middle, -, secondFailed⟩
  · exact first cursor fault firstFailed
  · exact second value middle fault secondFailed

/-- A decoder has used up all bytes when its run leaves none. -/
theorem Decoder.runAll_eq_ok {A : Type} {decoder : Decoder A} {excess : Nat → Fault}
    {bytes : Bytes} {value : A} :
    decoder.runAll excess bytes = .ok value ↔
      ∃ last, decoder.run (Cursor.at bytes 0) = .ok (value, last) ∧ last.rest = [] := by
  rw [runAll]
  apply Iff.intro
  · intro accepted
    split at accepted
    · cases accepted
    · next result last ran =>
        split at accepted
        · next nothing =>
            cases accepted
            exact ⟨last, ran, List.isEmpty_iff.mp nothing⟩
        · cases accepted
  · intro parts
    obtain ⟨last, ran, nothing⟩ := parts
    simp [ran, nothing]

/-- The fault of a decoder that has to use up all bytes is one of its own or the excess. -/
theorem Decoder.FailsOnly.runAll {A : Type} {decoder : Decoder A} {possible : Fault → Prop}
    (only : decoder.FailsOnly possible) {excess : Nat → Fault}
    (left : ∀ count, possible (excess count)) {bytes : Bytes} {fault : Fault}
    (refused : decoder.runAll excess bytes = .error fault) : possible fault := by
  rw [Decoder.runAll] at refused
  split at refused
  · next failed =>
      cases refused
      exact only _ _ failed
  · split at refused
    · cases refused
    · cases refused
      exact left _

/-- A decoder inverts a writer when it accepts exactly the written forms of the legal values. -/
def Decoder.Inverts {A : Type} (decoder : Decoder A) (write : A → Bytes) (legal : A → Prop) :
    Prop :=
  ∀ (cursor next : Cursor) (value : A), decoder.run cursor = .ok (value, next) ↔
    legal value ∧ cursor.Passes (write value) next

theorem Decoder.Inverts.run_ok {A : Type} {decoder : Decoder A} {write : A → Bytes}
    {legal : A → Prop} (inverts : decoder.Inverts write legal) {cursor next : Cursor} {value : A} :
    decoder.run cursor = .ok (value, next) ↔ legal value ∧ cursor.Passes (write value) next :=
  inverts cursor next value

/-- Written forms that a decoder inverts can be told apart, whatever follows them. -/
theorem Decoder.Inverts.append_inj {A : Type} {decoder : Decoder A} {write : A → Bytes}
    {legal : A → Prop} (inverts : decoder.Inverts write legal) {left right : A}
    {leftRest rightRest : Bytes} (leftLegal : legal left) (rightLegal : legal right)
    (same : write left ++ leftRest = write right ++ rightRest) :
    left = right ∧ leftRest = rightRest := by
  have leftRun : decoder.run ⟨write left ++ leftRest, 0⟩ =
      .ok (left, ⟨leftRest, 0 + (write left).length⟩) :=
    inverts.run_ok.mpr ⟨leftLegal, rfl, rfl⟩
  have rightRun : decoder.run ⟨write right ++ rightRest, 0⟩ =
      .ok (right, ⟨rightRest, 0 + (write right).length⟩) :=
    inverts.run_ok.mpr ⟨rightLegal, rfl, rfl⟩
  rw [same, rightRun] at leftRun
  simp only [Except.ok.injEq, Prod.mk.injEq, Cursor.mk.injEq] at leftRun
  exact ⟨leftRun.1.symm, leftRun.2.1.symm⟩

/-- A decoder that has to use up all bytes accepts only one written form. -/
theorem Decoder.Inverts.runAll_ok {A : Type} {decoder : Decoder A} {write : A → Bytes}
    {legal : A → Prop} (inverts : decoder.Inverts write legal) {excess : Nat → Fault}
    {bytes : Bytes} {value : A} :
    decoder.runAll excess bytes = .ok value ↔ legal value ∧ bytes = write value := by
  rw [runAll_eq_ok]
  apply Iff.intro
  · intro accepted
    obtain ⟨last, ran, nothing⟩ := accepted
    obtain ⟨legality, passes⟩ := inverts.run_ok.mp ran
    exact ⟨legality, ((Cursor.passes_all nothing).mp passes).1⟩
  · intro parts
    obtain ⟨legality, rfl⟩ := parts
    refine ⟨⟨[], (write value).length⟩, ?_, rfl⟩
    exact inverts.run_ok.mpr ⟨legality, (Cursor.passes_all rfl).mpr ⟨rfl, rfl⟩⟩

/-- Bytes behind a written form are counted as excess. -/
theorem Decoder.Inverts.runAll_append {A : Type} {decoder : Decoder A} {write : A → Bytes}
    {legal : A → Prop} (inverts : decoder.Inverts write legal) {excess : Nat → Fault}
    {value : A} {rest : Bytes} (legality : legal value) (more : rest ≠ []) :
    decoder.runAll excess (write value ++ rest) = .error (excess rest.length) := by
  have ran : decoder.run (Cursor.at (write value ++ rest) 0) =
      .ok (value, ⟨rest, 0 + (write value).length⟩) :=
    inverts.run_ok.mpr ⟨legality, rfl, rfl⟩
  have left : rest.isEmpty = false := List.isEmpty_eq_false_iff.mpr more
  rw [runAll, ran]
  simp only [left, Bool.false_eq_true, if_false]

theorem Decoder.block_inverts (field : Field) (size : Nat) :
    (block field size).Inverts id fun bytes => bytes.length = size := by
  intro cursor next value
  rw [block, take_run_ok]
  simp only [done_run_ok]
  apply Iff.intro
  · intro parts
    obtain ⟨octets, middle, passes, rfl, rfl⟩ := parts
    exact ⟨octets.length_eq, passes⟩
  · intro parts
    obtain ⟨sized, passes⟩ := parts
    exact ⟨⟨value, sized⟩, next, passes, rfl, rfl⟩

/-- A number of a fixed width is read exactly from its little-endian bytes. -/
theorem Decoder.number_inverts (field : Field) (width : Nat) :
    (number field width).Inverts (toLittleEndian width) fun value => value < 256 ^ width := by
  intro cursor next value
  rw [number, take_run_ok]
  simp only [done_run_ok]
  apply Iff.intro
  · intro parts
    obtain ⟨octets, middle, passes, rfl, rfl⟩ := parts
    have sized := octets.length_eq
    have written : toLittleEndian width octets.littleEndianValue = octets.bytes := by
      have back := toLittleEndian_ofLittleEndian octets.bytes
      rwa [sized] at back
    refine ⟨?_, by rwa [written]⟩
    have bound := ofLittleEndian_lt octets.bytes
    rwa [sized] at bound
  · intro parts
    obtain ⟨bound, passes⟩ := parts
    refine ⟨Octets.littleEndian width value, next, passes, ?_, rfl⟩
    rw [Octets.littleEndianValue, Octets.littleEndian, ofLittleEndian_toLittleEndian,
      Nat.mod_eq_of_lt bound]

theorem Decoder.byte_inverts : byte.Inverts (fun value => [value]) fun _ => True := by
  intro cursor next value
  rw [byte, bind_eq, bind_run_ok]
  simp only [(number_inverts _ _).run_ok, pure_eq, done_run_ok, true_and]
  apply Iff.intro
  · intro parts
    obtain ⟨number, middle, ⟨bound, passes⟩, rfl, rfl⟩ := parts
    have low : number % 256 = number := Nat.mod_eq_of_lt bound
    simpa [toLittleEndian, low] using passes
  · intro passes
    have low : value.toNat < 256 := value.toNat_lt
    refine ⟨value.toNat, next, ⟨low, ?_⟩, by simp, rfl⟩
    simpa [toLittleEndian, Nat.mod_eq_of_lt low] using passes

theorem Decoder.word32_inverts :
    word32.Inverts (fun value => toLittleEndian 4 value.toNat) fun _ => True := by
  intro cursor next value
  rw [word32, bind_eq, bind_run_ok]
  simp only [(number_inverts _ _).run_ok, pure_eq, done_run_ok, true_and]
  apply Iff.intro
  · intro parts
    obtain ⟨number, middle, ⟨bound, passes⟩, rfl, rfl⟩ := parts
    rwa [UInt32.toNat_ofNat_of_lt' bound]
  · intro passes
    exact ⟨value.toNat, next, ⟨value.toNat_lt, passes⟩, by simp, rfl⟩

theorem Decoder.word64_inverts :
    word64.Inverts (fun value => toLittleEndian 8 value.toNat) fun _ => True := by
  intro cursor next value
  rw [word64, bind_eq, bind_run_ok]
  simp only [(number_inverts _ _).run_ok, pure_eq, done_run_ok, true_and]
  apply Iff.intro
  · intro parts
    obtain ⟨number, middle, ⟨bound, passes⟩, rfl, rfl⟩ := parts
    rwa [UInt64.toNat_ofNat_of_lt' bound]
  · intro passes
    exact ⟨value.toNat, next, ⟨value.toNat_lt, passes⟩, by simp, rfl⟩

/-- The items behind the collected ones are read one after another, each at its position. -/
theorem Decoder.manyFrom_run_ok {A : Type} {item : Nat → Decoder A} {write : A → Bytes}
    {legal : Nat → A → Prop} (items : ∀ position, (item position).Inverts write (legal position))
    (count : Nat) {position : Nat} {collected values : List A} {cursor next : Cursor} :
    (manyFrom item count position collected).run cursor = .ok (values, next) ↔
      ∃ fresh : List A, values = collected.reverse ++ fresh ∧ fresh.length = count ∧
        (∀ index (inside : index < fresh.length), legal (position + index) fresh[index]) ∧
        cursor.Passes (fresh.flatMap write) next := by
  induction count generalizing position collected cursor with
  | zero =>
      rw [manyFrom, done_run_ok]
      apply Iff.intro
      · intro parts
        obtain ⟨rfl, rfl⟩ := parts
        exact ⟨[], by simp⟩
      · intro parts
        obtain ⟨fresh, rfl, empty, -, passes⟩ := parts
        obtain rfl := List.length_eq_zero_iff.mp empty
        simpa using passes
  | succ count ih =>
      rw [manyFrom, bind_run_ok]
      simp only [ih, (items position).run_ok, List.reverse_cons, List.append_assoc,
        List.singleton_append]
      apply Iff.intro
      · intro parts
        obtain ⟨value, middle, ⟨legality, passes⟩, rest, rfl, sized, others, passesRest⟩ := parts
        refine ⟨value :: rest, rfl, by simp [sized], ?_, ?_⟩
        · intro index inside
          cases index with
          | zero => exact legality
          | succ index =>
              have other := others index (by simpa using inside)
              rwa [Nat.add_assoc, Nat.add_comm 1] at other
        · rw [List.flatMap_cons]
          exact Cursor.passes_append.mpr ⟨middle, passes, passesRest⟩
      · intro parts
        obtain ⟨fresh, rfl, sized, legality, passes⟩ := parts
        obtain ⟨value, rest, rfl⟩ := List.exists_cons_of_length_eq_add_one sized
        rw [List.flatMap_cons] at passes
        obtain ⟨middle, passesValue, passesRest⟩ := Cursor.passes_append.mp passes
        refine ⟨value, middle, ⟨legality 0 (by simp), passesValue⟩, rest, rfl,
          by simpa using sized, ?_, passesRest⟩
        intro index inside
        have other := legality (index + 1) (by simpa using inside)
        rwa [Nat.add_assoc, Nat.add_comm 1]

/-- A list is read exactly from the written forms of its items. -/
theorem Decoder.many_inverts {A : Type} {item : Nat → Decoder A} {write : A → Bytes}
    {legal : Nat → A → Prop} (items : ∀ position, (item position).Inverts write (legal position))
    (count : Nat) :
    (many count item).Inverts (List.flatMap write) fun values => values.length = count ∧
      ∀ index (inside : index < values.length), legal index values[index] := by
  intro cursor next values
  rw [many, manyFrom_run_ok items]
  simp only [List.reverse_nil, List.nil_append, Nat.zero_add]
  apply Iff.intro
  · intro parts
    obtain ⟨fresh, rfl, sized, legality, passes⟩ := parts
    exact ⟨⟨sized, legality⟩, passes⟩
  · intro parts
    obtain ⟨⟨sized, legality⟩, passes⟩ := parts
    exact ⟨values, rfl, sized, legality, passes⟩

end CoinSpend
