/-
This file states the fields of a transaction in wire order and what is reported about bytes that are
cut off anywhere within them.
-/

import CoinSpend.Proofs.CompactSize.Canonical
import CoinSpend.Proofs.Decoder.Segments
import CoinSpend.Proofs.Transaction.RoundTrip

namespace CoinSpend

def Segment.number (field : Field) (width value : Nat) : Segment :=
  .plain field (toLittleEndian width value)

/-- The tag is a field of its own, and so is the number that it announces. -/
def CompactSize.layout (value : Nat) : List Segment :=
  match (Form.of value).mark with
  | none => [.number .byte 1 value]
  | some mark => [.plain .byte [mark.tag], .number mark.field mark.width value]

def Input.layout (count position : Nat) (input : Input) : List Segment :=
  .previousHash position count input.previousHash.reverse.bytes ::
    .number .word32 4 input.outputIndex.toNat ::
    (CompactSize.layout input.unlockingScript.length ++
      [.plain .unlockingScript input.unlockingScript,
        .number .word32 4 input.sequence.toNat])

def Output.layout (output : Output) : List Segment :=
  .number .word64 8 output.amount.toNat ::
    (CompactSize.layout output.lockingScript.length ++
      [.plain .lockingScript output.lockingScript])

/-- Every previous hash comes with the position of its input and the number of inputs. -/
def Transaction.layout (transaction : Transaction) : List Segment :=
  .number .word32 4 transaction.version.toNat ::
    (CompactSize.layout transaction.inputs.length ++
      ((transaction.inputs.mapIdx (Input.layout transaction.inputs.length)).flatten ++
        (CompactSize.layout transaction.outputs.length ++
          (transaction.outputs.flatMap Output.layout ++
            [.number .word32 4 transaction.locktime.toNat]))))

namespace Decoder

theorem number_laysOut (field : Field) (width : Nat) :
    (number field width).LaysOut fun value => [.number field width value] where
  takes ran := by
    obtain ⟨octets, middle, passes, done⟩ := take_run_ok.mp ran
    obtain ⟨rfl, rfl⟩ := done_run_ok.mp done
    have holds : toLittleEndian width octets.littleEndianValue = octets.bytes := by
      have back := toLittleEndian_ofLittleEndian octets.bytes
      rwa [octets.length_eq] at back
    refine .take holds ?_ passes (.done _ _)
    simp only [Segment.number, Segment.shortage, length_toLittleEndian]

theorem block_laysOut (field : Field) (size : Nat) :
    (block field size).LaysOut fun bytes => [.plain field bytes] where
  takes ran := by
    obtain ⟨octets, middle, passes, done⟩ := take_run_ok.mp ran
    obtain ⟨rfl, rfl⟩ := done_run_ok.mp done
    refine .take rfl ?_ passes (.done _ _)
    simp only [Segment.shortage, octets.length_eq]

theorem byte_laysOut : byte.LaysOut fun value => [.plain .byte [value]] := by
  apply (number_laysOut .byte 1).map
  intro cursor last value ran
  have small : value < 256 := ((number_inverts _ _).run_ok.mp ran).1
  simp [Segment.number, toLittleEndian, Nat.mod_eq_of_lt small]

theorem word32_laysOut : word32.LaysOut fun value => [.number .word32 4 value.toNat] := by
  apply (number_laysOut .word32 4).map
  intro cursor last value ran
  have small : value < 2 ^ 32 := ((number_inverts _ _).run_ok.mp ran).1
  rw [UInt32.toNat_ofNat_of_lt' small]

theorem word64_laysOut : word64.LaysOut fun value => [.number .word64 8 value.toNat] := by
  apply (number_laysOut .word64 8).map
  intro cursor last value ran
  have small : value < 2 ^ 64 := ((number_inverts _ _).run_ok.mp ran).1
  rw [UInt64.toNat_ofNat_of_lt' small]

end Decoder

/-- Behind its tag a value has a number as a further field, or it has none. -/
theorem CompactSize.layout_of_tag {tag : UInt8} {cursor last : Cursor} {value : Nat}
    (ran : ((Form.ofTag tag).payload tag).run cursor = .ok (value, last))
    (shortest : Form.of value = Form.ofTag tag) :
    ∃ rest, layout value = [.plain .byte [tag]] ++ rest ∧
      ((Form.ofTag tag).payload tag).Takes cursor rest value last := by
  unfold layout
  rw [shortest]
  -- The form of the value is that of its tag, and so is its mark.
  rcases Form.mark_ofTag tag with ⟨mark, marked, rfl⟩ | ⟨small, bare⟩
  · rw [Form.payload_of_mark marked] at ran ⊢
    rw [marked]
    exact ⟨_, rfl, (Decoder.number_laysOut _ _).takes ran⟩
  · rw [bare] at ran ⊢
    obtain ⟨rfl, rfl⟩ := Decoder.done_run_ok.mp ran
    refine ⟨[], ?_, .done _ _⟩
    simp [Form.mark, Segment.number, toLittleEndian]

theorem CompactSize.decoder_laysOut : decoder.LaysOut layout where
  takes {cursor last value} ran := by
    obtain ⟨tag, middle, passes, payload, shortest⟩ := decoder_run_ok.mp ran
    have tagged : Decoder.byte.run cursor = .ok (tag, middle) :=
      Decoder.byte_inverts.run_ok.mpr ⟨trivial, passes⟩
    have checked : (if Form.of value = Form.ofTag tag then pure value
        else .fail (.nonMinimal value cursor.offset) : Decoder Nat) = .done value :=
      if_pos shortest
    obtain ⟨rest, whole, behind⟩ := layout_of_tag payload shortest
    rw [whole]
    exact .locate ((Decoder.byte_laysOut.takes tagged).bind (behind.bind_done checked))

/-- A check takes no field. -/
theorem Limits.check_takes {limits : Limits} {quantity : Quantity} {value result : Nat}
    {cursor last : Cursor}
    (ran : ((limits.check quantity value).bind fun _ => .done value).run cursor =
      .ok (result, last)) :
    result = value ∧
      ((limits.check quantity value).bind fun _ => .done value).Takes cursor [] value last := by
  obtain ⟨_, middle, checked, done⟩ := Decoder.bind_run_ok.mp ran
  obtain ⟨below, rfl⟩ := check_run_ok.mp checked
  obtain ⟨rfl, rfl⟩ := Decoder.done_run_ok.mp done
  rw [check, if_neg (Nat.not_lt_of_le below)]
  exact ⟨rfl, .done _ _⟩

theorem Limits.declared_laysOut (limits : Limits) (quantity : Quantity) :
    (limits.declared quantity).LaysOut CompactSize.layout :=
  CompactSize.decoder_laysOut.guard limits.check_takes

theorem Input.decodeHash_laysOut (position count : Nat) :
    (decodeHash position count).LaysOut fun hash =>
      [.previousHash position count hash.reverse.bytes] where
  takes ran := by
    obtain ⟨octets, middle, passes, done⟩ := Decoder.take_run_ok.mp ran
    obtain ⟨rfl, rfl⟩ := Decoder.done_run_ok.mp done
    refine .take ?_ rfl passes (.done _ _)
    rw [Octets.reverse_reverse, Segment.bytes]

theorem Input.decoder_laysOut (limits : Limits) (count position : Nat) :
    (Input.decoder limits count position).LaysOut (Input.layout count position) where
  takes ran := by
    obtain ⟨hash, first, hashRan, ran⟩ := Decoder.bind_run_ok.mp ran
    obtain ⟨index, second, indexRan, ran⟩ := Decoder.bind_run_ok.mp ran
    obtain ⟨length, third, lengthRan, ran⟩ := Decoder.bind_run_ok.mp ran
    obtain ⟨script, fourth, scriptRan, ran⟩ := Decoder.bind_run_ok.mp ran
    obtain ⟨sequence, fifth, sequenceRan, done⟩ := Decoder.bind_run_ok.mp ran
    obtain ⟨rfl, rfl⟩ := Decoder.done_run_ok.mp done
    obtain ⟨rfl, -⟩ := (Decoder.block_inverts _ _).run_ok.mp scriptRan
    exact ((decodeHash_laysOut position count).takes hashRan).bind <|
      (Decoder.word32_laysOut.takes indexRan).bind <|
      ((limits.declared_laysOut _).takes lengthRan).bind <|
      ((Decoder.block_laysOut _ _).takes scriptRan).bind <|
      (Decoder.word32_laysOut.takes sequenceRan).bind_done rfl

theorem Output.decoder_laysOut (limits : Limits) :
    (Output.decoder limits).LaysOut Output.layout where
  takes ran := by
    obtain ⟨amount, first, amountRan, ran⟩ := Decoder.bind_run_ok.mp ran
    obtain ⟨length, second, lengthRan, ran⟩ := Decoder.bind_run_ok.mp ran
    obtain ⟨script, third, scriptRan, done⟩ := Decoder.bind_run_ok.mp ran
    obtain ⟨rfl, rfl⟩ := Decoder.done_run_ok.mp done
    obtain ⟨rfl, -⟩ := (Decoder.block_inverts _ _).run_ok.mp scriptRan
    exact (Decoder.word64_laysOut.takes amountRan).bind <|
      ((limits.declared_laysOut _).takes lengthRan).bind <|
      ((Decoder.block_laysOut _ _).takes scriptRan).bind_done rfl

theorem Transaction.decodeOutputCount_laysOut (limits : Limits) :
    (decodeOutputCount limits).LaysOut CompactSize.layout := by
  apply CompactSize.decoder_laysOut.guard
  intro cursor last count result ran
  split at ran
  · cases ran
  · next nonzero =>
      rw [if_neg nonzero]
      exact limits.check_takes ran

/-- All outputs are laid out alike. -/
theorem Output.flatten_layout (outputs : List Output) :
    (outputs.mapIdx fun _ => Output.layout).flatten = outputs.flatMap Output.layout := by
  induction outputs with
  | nil => rfl
  | cons output rest ih => rw [List.mapIdx_cons, List.flatten_cons, ih, List.flatMap_cons]

theorem Transaction.decoder_laysOut (limits : Limits) :
    (decoder limits).LaysOut Transaction.layout where
  takes ran := by
    obtain ⟨version, first, versionRan, ran⟩ := Decoder.bind_run_ok.mp ran
    obtain ⟨inputCount, second, inputCountRan, ran⟩ := Decoder.bind_run_ok.mp ran
    obtain ⟨inputs, third, inputsRan, ran⟩ := Decoder.bind_run_ok.mp ran
    obtain ⟨outputCount, fourth, outputCountRan, ran⟩ := Decoder.bind_run_ok.mp ran
    obtain ⟨outputs, fifth, outputsRan, ran⟩ := Decoder.bind_run_ok.mp ran
    obtain ⟨locktime, sixth, locktimeRan, done⟩ := Decoder.bind_run_ok.mp ran
    obtain ⟨rfl, rfl⟩ := Decoder.done_run_ok.mp done
    obtain ⟨⟨rfl, -⟩, -⟩ :=
      (Decoder.many_inverts (Input.decoder_inverts limits _) _).run_ok.mp inputsRan
    obtain ⟨⟨rfl, -⟩, -⟩ :=
      (Decoder.many_inverts (fun _ => Output.decoder_inverts limits) _).run_ok.mp outputsRan
    have inputsTaken :=
      (Decoder.many_laysOut (Input.decoder_laysOut limits inputs.length) _).takes inputsRan
    have outputsTaken :=
      (Decoder.many_laysOut (fun _ => Output.decoder_laysOut limits) _).takes outputsRan
    rw [Output.flatten_layout] at outputsTaken
    exact (Decoder.word32_laysOut.takes versionRan).bind <|
      ((limits.declared_laysOut _).takes inputCountRan).bind <|
      inputsTaken.bind <|
      ((decodeOutputCount_laysOut limits).takes outputCountRan).bind <|
      outputsTaken.bind <|
      (Decoder.word32_laysOut.takes locktimeRan).bind_done rfl

theorem CompactSize.previousHash_not_mem_layout {value position count : Nat} {hash : Bytes} :
    Segment.previousHash position count hash ∉ layout value := by
  unfold layout
  split <;> simp [Segment.number]

/-- A previous hash is that of the input at its position, and the count is that of the inputs. -/
theorem Transaction.previousHash_mem_layout {transaction : Transaction} {position count : Nat}
    {hash : Bytes} (member : Segment.previousHash position count hash ∈ transaction.layout) :
    count = transaction.inputs.length ∧ ∃ input, transaction.inputs[position]? = some input ∧
      hash = input.previousHash.reverse.bytes := by
  simp only [layout, Output.layout, Segment.number, List.mem_cons, List.mem_append,
    List.mem_flatten, List.mem_mapIdx, List.mem_flatMap, CompactSize.previousHash_not_mem_layout,
    reduceCtorEq, false_or, or_false, List.not_mem_nil, and_false, exists_false] at member
  obtain ⟨_, ⟨index, inside, rfl⟩, member⟩ := member
  simp only [Input.layout, Segment.number, List.mem_cons, List.mem_append,
    CompactSize.previousHash_not_mem_layout, reduceCtorEq, or_false, List.not_mem_nil,
    Segment.previousHash.injEq] at member
  obtain ⟨rfl, rfl, rfl⟩ := member
  exact ⟨rfl, _, List.getElem?_eq_getElem inside, rfl⟩

/-- Bytes that are cut off are reported by the field that the cut strikes: a previous hash with its
input, any other field with its offset and with what is left of it. -/
theorem Transaction.decode_take {bytes : Bytes} {transaction : Transaction}
    (accepted : decode bytes = .ok transaction) :
    written transaction.layout = bytes ∧
    (∀ cut < bytes.length, ∃ front segment rest,
      transaction.layout = front ++ segment :: rest ∧ segment.Struck front cut) ∧
    (∀ front segment rest cut, transaction.layout = front ++ segment :: rest →
      segment.Struck front cut → decode (bytes.take cut) =
        .error (segment.shortage (written front).length (cut - (written front).length))) ∧
    (∀ position count hash, .previousHash position count hash ∈ transaction.layout →
      count = transaction.inputs.length ∧ ∃ input, transaction.inputs[position]? = some input ∧
        hash = input.previousHash.reverse.bytes) ∧
    (∀ position count hash start available,
      ((Segment.previousHash position count hash).shortage start available).message =
        s!"missing previous-transaction hash for input {position} of {count}") ∧
    (∀ field content start available,
      ((Segment.plain field content).shortage start available).message =
        "unexpected EOF (" ++ field.label ++
          s!"): need {content.length} bytes at offset {start}, have {available}") ∧
    (∀ start, start <+: bytes → start ≠ bytes →
      ∃ fault, decode start = .error fault ∧ fault.code.label = "TX_ERR_PARSE") := by
  have laysOut := decoder_laysOut .unlimited
  have whole : written transaction.layout = bytes := laysOut.written_layout accepted
  have refused (front segment rest cut) (parts : transaction.layout = front ++ segment :: rest)
      (struck : segment.Struck front cut) : decode (bytes.take cut) = _ :=
    laysOut.runAll_take accepted parts struck
  have strikes (cut) (within : cut < bytes.length) := by
    rw [← whole] at within
    exact exists_struck transaction.layout within
  refine ⟨whole, strikes, refused, fun _ _ _ => previousHash_mem_layout, fun _ _ _ _ _ => rfl,
    fun _ _ _ _ => rfl, ?_⟩
  intro start begins proper
  have within : start.length < bytes.length := by
    apply Nat.lt_of_le_of_ne begins.length_le
    intro same
    exact proper (begins.eq_of_length same)
  obtain ⟨front, segment, rest, parts, struck⟩ := strikes start.length within
  have failed := refused front segment rest start.length parts struck
  rw [← List.prefix_iff_eq_take.mp begins] at failed
  refine ⟨_, failed, ?_⟩
  cases segment <;> rfl

/-- A cut in the second previous hash is reported with its input, and a cut in the index behind it
with the bytes that are left. -/
theorem twinSpend_take :
    (∃ transaction, Transaction.decode twinSpend.encode = .ok transaction) ∧
      Transaction.decode (twinSpend.encode.take 77) = .error (.missingPreviousHash 1 2) ∧
      Transaction.decode (twinSpend.encode.take 80) = .error (.unexpectedEnd .word32 4 78 2) := by
  have accepted := Transaction.decode_encode_relabelled twinSpend_declarable (by decide)
  have refused := (Transaction.decode_take accepted).2.2.1
  have split (index) (inside : index < twinSpend.relabelled.layout.length) :
      twinSpend.relabelled.layout = twinSpend.relabelled.layout.take index ++
        twinSpend.relabelled.layout[index] :: twinSpend.relabelled.layout.drop (index + 1) := by
    rw [← List.drop_eq_getElem_cons inside, List.take_append_drop]
  exact ⟨⟨_, accepted⟩, refused _ _ _ 77 (split 7 (by decide +kernel)) ⟨by decide, by decide⟩,
    refused _ _ _ 80 (split 8 (by decide +kernel)) ⟨by decide, by decide⟩⟩

end CoinSpend
