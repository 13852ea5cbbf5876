/-
This file states that the bytes to sign are the encoding of the signed form with the type behind it,
and that they are never read as a transaction.
-/

import CoinSpend.Proofs.ScriptCode
import CoinSpend.Proofs.Transaction.Commitment

namespace CoinSpend

theorem Transaction.signingPreimage_outside {transaction : Transaction} {position : Nat}
    (outside : transaction.inputs.length ≤ position) :
    transaction.signingPreimage position =
      .error (.noInput position transaction.inputs.length) := by
  rw [signingPreimage, preimageFrom, input_outside outside]
  rfl

/-- A script that cannot be read has no key to derive a script code from. -/
theorem Transaction.signingPreimage_unreadable {transaction : Transaction} {position : Nat}
    {input : Input} {fault : Fault} (found : transaction.inputs[position]? = some input)
    (refused : UnlockingScript.decode input.unlockingScript = .error fault) :
    transaction.signingPreimage position = .error fault := by
  rw [signingPreimage, preimageFrom, input_eq_ok.mpr found]
  simp only [bind, Except.bind, ScriptCodeSource.scriptCode, Input.publicKey, refused, Except.map]

/-- The type behind the signed form is left over, or the missing outputs are noticed before it. -/
theorem Transaction.decode_preimage {transaction : Transaction} {position : Nat}
    {script bytes : Bytes} (declarable : transaction.Declarable)
    (fits : script.length ≤ maxDeclared)
    (written : transaction.preimage position script = .ok bytes) :
    decode bytes = .error (if transaction.outputs = [] then .noOutputs else .trailingBytes 4) := by
  have inside := inside_of_preimage written
  have form := signedForm_declarable declarable fits position
  have size : (toLittleEndian 4 sighashAll).length = 4 := length_toLittleEndian 4 sighashAll
  have type : toLittleEndian 4 sighashAll ≠ [] :=
    List.ne_nil_of_length_pos (by rw [size]; decide)
  rw [preimage_eq inside, Except.ok.injEq] at written
  rw [← written]
  by_cases noOutput : transaction.outputs = []
  · rw [if_pos noOutput]
    exact decode_encode_append_noOutputs form noOutput _
  · rw [if_neg noOutput, ← size]
    exact decode_encode_append form noOutput type

/-- The bytes to sign are the encoding of the transaction that carries the script code at the signed
position and no other script, followed by the type. They are made for inputs that are there, with
the code of the pushed key unless another is given, and no reading takes them for a transaction. -/
theorem Transaction.preimage_is_encoding (transaction : Transaction) (position : Nat) :
    (position < transaction.inputs.length → ∀ script,
      transaction.preimage position script =
        .ok ((transaction.signedForm position script).encode ++ [0x01, 0x00, 0x00, 0x00])) ∧
    (transaction.inputs.length ≤ position → ∀ script,
      transaction.preimage position script =
          .error (.noSigningInput position transaction.inputs.length) ∧
        transaction.encodeFor (some position) =
          .error (.noInput position transaction.inputs.length)) ∧
    (∀ input parts, transaction.inputs[position]? = some input →
      UnlockingScript.decode input.unlockingScript = .ok parts →
      transaction.encodeFor (some position) =
        transaction.preimage position (payToKeyHash parts.key.hash)) ∧
    (∀ input fault, transaction.inputs[position]? = some input →
      UnlockingScript.decode input.unlockingScript = .error fault →
      transaction.encodeFor (some position) = .error fault) ∧
    transaction.encodeFor none = .ok transaction.encode ∧
    (transaction.Declarable → ∀ script bytes, script.length ≤ maxDeclared →
      transaction.preimage position script = .ok bytes →
      (transaction.outputs ≠ [] → decode bytes = .error (.trailingBytes 4)) ∧
        (transaction.outputs = [] → decode bytes = .error .noOutputs)) ∧
    (∀ count, (Fault.noSigningInput position count).code.label = "TX_ERR_INPUT_INDEX" ∧
      (Fault.noInput position count).code.label = "TX_ERR_INPUT_INDEX") ∧
    (Fault.trailingBytes 4).message = "4 trailing bytes after locktime" ∧
    Fault.noOutputs.message = "no outputs found" := by
  refine ⟨fun inside script => preimage_eq inside script, fun outside script => ⟨?_, ?_⟩,
    fun input parts found decoded => signingPreimage_eq found decoded,
    fun input fault found refused => signingPreimage_unreadable found refused, rfl, ?_,
    fun count => ⟨rfl, rfl⟩, rfl, rfl⟩
  · rw [preimage, if_neg (Nat.not_lt_of_le outside)]
  · exact signingPreimage_outside outside
  · intro declarable script bytes fits written
    have refused := decode_preimage declarable fits written
    refine ⟨fun someOutput => ?_, fun noOutput => ?_⟩
    · rwa [if_neg someOutput] at refused
    · rwa [if_pos noOutput] at refused

/-- The bytes that the second input signs are refused for the type behind them. -/
theorem twinSpend_preimage :
    twinSpend.preimage 1 [0x51] = .ok ((twinSpend.signedForm 1 [0x51]).encode ++
        [0x01, 0x00, 0x00, 0x00]) ∧
      Transaction.decode ((twinSpend.signedForm 1 [0x51]).encode ++ [0x01, 0x00, 0x00, 0x00]) =
        .error (.trailingBytes 4) := by
  obtain ⟨encoded, -, -, -, -, refused, -⟩ := twinSpend.preimage_is_encoding 1
  have written := encoded (by decide) [0x51]
  exact ⟨written, (refused twinSpend_declarable [0x51] _ (by decide) written).1 (by decide)⟩

end CoinSpend
