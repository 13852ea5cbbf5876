/-
This file states that the encoding of a transaction is canonical: reading it gives the transaction
with fresh labels, and every accepted byte string is the encoding of its result.
-/

import CoinSpend.Proofs.Transaction.Codec

namespace CoinSpend

theorem Transaction.measures_relabelled {transaction : Transaction}
    {admits : Quantity → Nat → Prop} (measures : transaction.Measures admits) :
    transaction.relabelled.Measures admits where
  inputCount := by
    rw [relabelled, length_labelled]
    exact measures.inputCount
  unlockingScripts := by
    intro input member
    obtain ⟨index, inside, rfl⟩ := List.getElem_of_mem member
    have original : index < transaction.inputs.length := by
      rwa [relabelled, length_labelled] at inside
    simp only [relabelled, getElem_labelled original]
    exact measures.unlockingScripts transaction.inputs[index] (List.getElem_mem original)
  outputCount := measures.outputCount
  lockingScripts := measures.lockingScripts

/-- With an output the encoding is read back with fresh labels. -/
theorem Transaction.decode_encode_relabelled {transaction : Transaction}
    (declarable : transaction.Declarable) (someOutput : transaction.outputs ≠ []) :
    decode transaction.encode = .ok transaction.relabelled := by
  have measures := measures_relabelled (measures_unlimited.mpr declarable)
  have labels : labelled transaction.relabelled.inputs = transaction.relabelled.inputs :=
    labelled_labelled transaction.inputs
  exact decodeWithin_ok.mpr ⟨⟨measures, someOutput, labels⟩, transaction.encode_relabelled.symm⟩

/-- Without an output the inputs are read in full before the count of outputs is refused. -/
theorem Transaction.decoder_run_noOutputs {limits : Limits} {transaction : Transaction}
    {cursor next : Cursor} (measures : transaction.Measures limits.Admits)
    (passes : cursor.Passes (transaction.encodeHead ++ transaction.inputs.flatMap Input.encode ++
      CompactSize.encode 0) next) :
    (decoder limits).run cursor = .error .noOutputs := by
  obtain ⟨third, front, countPasses⟩ := Cursor.passes_append.mp passes
  obtain ⟨second, head, inputsPass⟩ := Cursor.passes_append.mp front
  rw [encodeHead] at head
  obtain ⟨first, versionPasses, inputCountPasses⟩ := Cursor.passes_append.mp head
  have fresh := measures_relabelled measures
  have version : Decoder.word32.run cursor = .ok (transaction.version, first) :=
    Decoder.word32_inverts.run_ok.mpr ⟨trivial, versionPasses⟩
  have inputCount : (limits.declared .inputCount).run first =
      .ok (transaction.inputs.length, second) :=
    (limits.declared_inverts _).run_ok.mpr ⟨measures.inputCount, inputCountPasses⟩
  have inputs : (Decoder.many transaction.inputs.length
      (Input.decoder limits transaction.inputs.length)).run second =
      .ok (labelled transaction.inputs, third) := by
    rw [(Decoder.many_inverts (Input.decoder_inverts limits _) _).run_ok, inputs_legal_iff,
      flatMap_encode_labelled]
    exact ⟨⟨length_labelled _, fresh.unlockingScripts, labelled_labelled _⟩, inputsPass⟩
  rw [decoder, Decoder.bind_eq, Decoder.bind_run_error]
  refine .inr ⟨transaction.version, first, version, ?_⟩
  rw [Decoder.bind_eq, Decoder.bind_run_error]
  refine .inr ⟨transaction.inputs.length, second, inputCount, ?_⟩
  rw [Decoder.bind_eq, Decoder.bind_run_error]
  refine .inr ⟨labelled transaction.inputs, third, inputs, ?_⟩
  rw [Decoder.bind_eq, Decoder.bind_run_error]
  exact .inl (decodeOutputCount_zero countPasses)

/-- Without an output the bytes behind the encoding are not reached. -/
theorem Transaction.decode_encode_append_noOutputs {transaction : Transaction}
    (declarable : transaction.Declarable) (noOutput : transaction.outputs = []) (rest : Bytes) :
    decode (transaction.encode ++ rest) = .error .noOutputs := by
  have passes : (Cursor.at (transaction.encode ++ rest) 0).Passes
      (transaction.encodeHead ++ transaction.inputs.flatMap Input.encode ++ CompactSize.encode 0)
      ⟨toLittleEndian 4 transaction.locktime.toNat ++ rest, _⟩ :=
    ⟨by simp [Cursor.at, encode, encodeTail, noOutput], rfl⟩
  have failure := decoder_run_noOutputs (measures_unlimited.mpr declarable) passes
  rw [decode, decodeWithin, Decoder.runAll, failure]

theorem Transaction.decode_encode_noOutputs {transaction : Transaction}
    (declarable : transaction.Declarable) (noOutput : transaction.outputs = []) :
    decode transaction.encode = .error .noOutputs := by
  rw [← decode_encode_append_noOutputs declarable noOutput [], List.append_nil]

/-- With an output the bytes behind the encoding are counted. -/
theorem Transaction.decode_encode_append {transaction : Transaction}
    (declarable : transaction.Declarable) (someOutput : transaction.outputs ≠ []) {rest : Bytes}
    (more : rest ≠ []) :
    decode (transaction.encode ++ rest) = .error (.trailingBytes rest.length) := by
  have measures := measures_relabelled (measures_unlimited.mpr declarable)
  rw [← transaction.encode_relabelled]
  exact (decoder_inverts .unlimited).runAll_append
    ⟨measures, someOutput, labelled_labelled transaction.inputs⟩ more

/-- Reading the encoding is the same as making the transaction again from its parts. -/
theorem Transaction.decode_encode (transaction : Transaction)
    (declarable : transaction.Declarable) :
    decode transaction.encode = ofParts transaction.version transaction.inputs
        transaction.outputs transaction.locktime ∧
      (transaction.outputs ≠ [] →
        decode transaction.encode =
          .ok { transaction with inputs := labelled transaction.inputs }) ∧
      (transaction.outputs ≠ [] →
        transaction.inputs.map Input.id = List.range transaction.inputs.length →
        decode transaction.encode = .ok transaction) ∧
      (transaction.outputs = [] →
        decode transaction.encode = .error .noOutputs ∧
          Fault.noOutputs.code.label = "TX_ERR_PARSE" ∧
          Fault.noOutputs.message = "no outputs found") := by
  refine ⟨?_, fun someOutput => ?_, fun someOutput positions => ?_, fun noOutput => ?_⟩
  · by_cases noOutput : transaction.outputs = []
    · rw [decode_encode_noOutputs declarable noOutput, ofParts, noOutput]
      rfl
    · have filled : transaction.outputs.isEmpty = false := by
        rwa [List.isEmpty_eq_false_iff]
      rw [decode_encode_relabelled declarable noOutput, ofParts, filled]
      rfl
  · exact decode_encode_relabelled declarable someOutput
  · have same : transaction.relabelled = transaction := by
      rw [relabelled, labelled_eq_self_iff_map_id.mpr positions]
    rw [decode_encode_relabelled declarable someOutput, same]
  · exact ⟨decode_encode_noOutputs declarable noOutput, rfl, rfl⟩

/-- Two inputs carry one label, and the script of the second needs a longer form of its length. -/
def twinSpend : Transaction where
  version := 2
  inputs := [⟨Octets.littleEndian 32 5, 0, [], 0xffffffff, 7⟩,
    ⟨Octets.littleEndian 32 5, 1, List.replicate 253 0xac, 0, 7⟩]
  outputs := [⟨50, [0x51]⟩]
  locktime := 0

theorem twinSpend_declarable : twinSpend.Declarable := by
  have inputs : ∀ input ∈ twinSpend.inputs, input.unlockingScript.length ≤ maxDeclared := by
    decide +kernel
  have outputs : ∀ output ∈ twinSpend.outputs, output.lockingScript.length ≤ maxDeclared := by
    decide
  exact ⟨by decide, inputs, by decide, outputs⟩

/-- Both inputs are read back with the label of their position. -/
theorem twinSpend_decode_encode :
    twinSpend.Declarable ∧ Transaction.decode twinSpend.encode = .ok { twinSpend with
      inputs := [⟨Octets.littleEndian 32 5, 0, [], 0xffffffff, 0⟩,
        ⟨Octets.littleEndian 32 5, 1, List.replicate 253 0xac, 0, 1⟩] } :=
  ⟨twinSpend_declarable,
    (Transaction.decode_encode twinSpend twinSpend_declarable).2.1 (by decide)⟩

/-- An accepted byte string is the encoding of its result and of nothing else. -/
theorem Transaction.encode_of_decodeWithin {limits : Limits} {bytes : Bytes}
    {transaction : Transaction} (accepted : decodeWithin limits bytes = .ok transaction) :
    transaction.encode = bytes ∧ transaction.outputs ≠ [] ∧
      transaction.inputs.map Input.id = List.range transaction.inputs.length ∧
      ∀ (otherLimits : Limits) (otherBytes : Bytes),
        decodeWithin otherLimits otherBytes = .ok transaction → otherBytes = bytes := by
  obtain ⟨⟨-, someOutput, labels⟩, encoded⟩ := decodeWithin_ok.mp accepted
  refine ⟨encoded.symm, someOutput, labelled_eq_self_iff_map_id.mp labels, ?_⟩
  intro otherLimits otherBytes otherAccepted
  have otherEncoded := (decodeWithin_ok.mp otherAccepted).2
  rw [otherEncoded, encoded]

theorem twinSpend_admitted : twinSpend.Measures (Limits.Admits ⟨2, 1, 253⟩) where
  inputCount := ⟨by decide, by decide⟩
  unlockingScripts := by
    unfold Limits.Admits
    decide +kernel
  outputCount := ⟨by decide, by decide⟩
  lockingScripts := by
    unfold Limits.Admits
    decide

/-- The limits are as tight as the two inputs allow, and the labels come out as positions. -/
theorem Transaction.encode_of_decodeWithin_tight :
    decodeWithin ⟨2, 1, 253⟩ twinSpend.encode = .ok twinSpend.relabelled ∧
      twinSpend.relabelled.encode = twinSpend.encode ∧ twinSpend.relabelled.outputs ≠ [] ∧
      twinSpend.relabelled.inputs.map Input.id = [0, 1] ∧
      ∀ (otherLimits : Limits) (otherBytes : Bytes),
        decodeWithin otherLimits otherBytes = .ok twinSpend.relabelled →
          otherBytes = twinSpend.encode := by
  have legal : twinSpend.relabelled.Measures (Limits.Admits ⟨2, 1, 253⟩) :=
    measures_relabelled twinSpend_admitted
  have accepted : decodeWithin ⟨2, 1, 253⟩ twinSpend.encode = .ok twinSpend.relabelled :=
    decodeWithin_ok.mpr ⟨⟨legal, by decide, labelled_labelled twinSpend.inputs⟩,
      twinSpend.encode_relabelled.symm⟩
  obtain ⟨encoded, someOutput, positions, unique⟩ := encode_of_decodeWithin accepted
  exact ⟨accepted, encoded, someOutput, positions, unique⟩

end CoinSpend
