/-
This file states that the bytes to sign determine everything that a signature commits to.
-/

import CoinSpend.Proofs.Outcome
import CoinSpend.Proofs.Transaction.RoundTrip
import CoinSpend.ScriptCode

namespace CoinSpend

/-- The parts of an encoding are told apart one after the other, with or without outputs. -/
theorem Transaction.encode_append_inj {left right : Transaction} {leftRest rightRest : Bytes}
    (leftDeclarable : left.Declarable) (rightDeclarable : right.Declarable)
    (same : left.encode ++ leftRest = right.encode ++ rightRest) :
    left.relabelled = right.relabelled ∧ leftRest = rightRest := by
  have leftMeasures := measures_relabelled (measures_unlimited.mpr leftDeclarable)
  have rightMeasures := measures_relabelled (measures_unlimited.mpr rightDeclarable)
  simp only [encode, encodeHead, encodeTail, List.append_assoc] at same
  obtain ⟨version, afterVersion⟩ := Decoder.word32_inverts.append_inj trivial trivial same
  obtain ⟨inputCount, afterInputCount⟩ := CompactSize.decoder_inverts.append_inj
    leftDeclarable.inputCount rightDeclarable.inputCount afterVersion
  rw [← flatMap_encode_labelled left.inputs, ← flatMap_encode_labelled right.inputs]
    at afterInputCount
  obtain ⟨inputs, afterInputs⟩ := (Decoder.many_inverts
    (Input.decoder_inverts .unlimited left.inputs.length) left.inputs.length).append_inj
    ⟨length_labelled _, inputs_legal_iff.mpr ⟨leftMeasures.unlockingScripts, labelled_labelled _⟩⟩
    ⟨(length_labelled _).trans inputCount.symm,
      inputs_legal_iff.mpr ⟨rightMeasures.unlockingScripts, labelled_labelled _⟩⟩ afterInputCount
  obtain ⟨outputCount, afterOutputCount⟩ := CompactSize.decoder_inverts.append_inj
    leftDeclarable.outputCount rightDeclarable.outputCount afterInputs
  obtain ⟨outputs, afterOutputs⟩ := (Decoder.many_inverts
    (fun _ => Output.decoder_inverts .unlimited) left.outputs.length).append_inj
    ⟨rfl, List.forall_mem_iff_forall_getElem.mp leftMeasures.lockingScripts⟩
    ⟨outputCount.symm, List.forall_mem_iff_forall_getElem.mp rightMeasures.lockingScripts⟩
    afterOutputCount
  obtain ⟨locktime, rests⟩ := Decoder.word32_inverts.append_inj trivial trivial afterOutputs
  refine ⟨?_, rests⟩
  rw [relabelled, relabelled, version, inputs, outputs, locktime]

/-- The signed form keeps one script and empties all others. -/
def Transaction.signedForm (transaction : Transaction) (position : Nat) (script : Bytes) :
    Transaction :=
  { transaction with
    inputs := transaction.inputs.mapIdx fun index input =>
      input.withScript (if index = position then script else []) }

/-- The slot of an input is its script in the signed form, with its length in front. -/
theorem Input.encodeWithSlot_eq (input : Input) (position index : Nat) (script : Bytes) :
    input.encodeWithSlot (signingSlot position script index) =
      (input.withScript (if index = position then script else [])).encode := by
  by_cases signed : index = position
  · rw [signingSlot, if_pos signed, if_pos signed]
    rfl
  · rw [signingSlot, if_neg signed, if_neg signed]
    rfl

/-- The preimage is the encoding of the signed form, followed by the signature type. -/
theorem Transaction.preimage_eq {transaction : Transaction} {position : Nat}
    (inside : position < transaction.inputs.length) (script : Bytes) :
    transaction.preimage position script =
      .ok ((transaction.signedForm position script).encode ++ toLittleEndian 4 sighashAll) := by
  have head : (transaction.signedForm position script).encodeHead = transaction.encodeHead := by
    rw [encodeHead, signedForm, List.length_mapIdx]
    rfl
  have inputs : (transaction.inputs.mapIdx fun index input =>
      input.encodeWithSlot (signingSlot position script index)).flatten =
      (transaction.signedForm position script).inputs.flatMap Input.encode := by
    rw [signedForm, List.flatMap_def, List.mapIdx_eq_zipIdx_map, List.mapIdx_eq_zipIdx_map,
      List.map_map]
    simp only [Input.encodeWithSlot_eq, Function.comp_def]
  rw [preimage, if_pos inside, inputs, encode, head]
  rfl

theorem Transaction.signedForm_declarable {transaction : Transaction} {script : Bytes}
    (declarable : transaction.Declarable) (fits : script.length ≤ maxDeclared) (position : Nat) :
    (transaction.signedForm position script).Declarable where
  inputCount := by
    rw [signedForm, List.length_mapIdx]
    exact declarable.inputCount
  unlockingScripts := by
    intro input member
    obtain ⟨index, inside, rfl⟩ := List.mem_mapIdx.mp member
    by_cases signed : index = position
    · rw [if_pos signed]
      exact fits
    · rw [if_neg signed]
      exact Nat.zero_le _
  outputCount := declarable.outputCount
  lockingScripts := declarable.lockingScripts

theorem Transaction.relabelled_signedForm_input (transaction : Transaction) (position : Nat)
    (script : Bytes) (index : Nat) :
    (transaction.signedForm position script).relabelled.inputs[index]? =
      transaction.inputs[index]?.map fun input =>
        (input.withScript (if index = position then script else [])).withId index := by
  simp only [relabelled, labelled, signedForm, List.getElem?_mapIdx, Option.map_map,
    Function.comp_def]

/-- An empty script code would be lost among the empty scripts; every other one shows the signed
position and itself. -/
theorem signedScript_inj {leftPosition rightPosition : Nat} {leftScript rightScript : Bytes}
    (nonempty : leftScript ≠ [])
    (same : (if leftPosition = leftPosition then leftScript else []) =
      if leftPosition = rightPosition then rightScript else []) :
    leftPosition = rightPosition ∧ leftScript = rightScript := by
  rw [if_pos rfl] at same
  by_cases signed : leftPosition = rightPosition
  · rw [if_pos signed] at same
    exact ⟨signed, same⟩
  · rw [if_neg signed] at same
    exact absurd same nonempty

/-- Two transactions have the same content to be signed: everything but scripts and labels. -/
structure Transaction.SameUnsigned (left right : Transaction) : Prop where
  version : left.version = right.version
  locktime : left.locktime = right.locktime
  outputs : left.outputs = right.outputs
  inputCount : left.inputs.length = right.inputs.length
  inputs : ∀ (index : Nat) (first second : Input), left.inputs[index]? = some first →
    right.inputs[index]? = some second → first.previousHash = second.previousHash ∧
      first.outputIndex = second.outputIndex ∧ first.sequence = second.sequence

/-- A signed form shows its position, its script code and the content to be signed. -/
theorem Transaction.signedForm_inj {left right : Transaction} {leftPosition rightPosition : Nat}
    {leftScript rightScript : Bytes} (inside : leftPosition < left.inputs.length)
    (nonempty : leftScript ≠ [])
    (forms : (left.signedForm leftPosition leftScript).relabelled =
      (right.signedForm rightPosition rightScript).relabelled) :
    leftPosition = rightPosition ∧ leftScript = rightScript ∧ left.SameUnsigned right := by
  have version := congrArg Transaction.version forms
  have locktime := congrArg Transaction.locktime forms
  have outputs := congrArg Transaction.outputs forms
  have count : left.inputs.length = right.inputs.length := by
    have lengths := congrArg (fun form => form.inputs.length) forms
    simpa [relabelled, signedForm] using lengths
  have entries (index : Nat) (first second : Input) (atFirst : left.inputs[index]? = some first)
      (atSecond : right.inputs[index]? = some second) :
      (first.withScript (if index = leftPosition then leftScript else [])).withId index =
        (second.withScript (if index = rightPosition then rightScript else [])).withId index := by
    have entry := congrArg (fun form => form.inputs[index]?) forms
    simpa only [relabelled_signedForm_input, atFirst, atSecond, Option.map_some,
      Option.some.injEq] using entry
  have atLeft := List.getElem?_eq_getElem inside
  have atRight := List.getElem?_eq_getElem (count ▸ inside)
  have scripts := congrArg Input.unlockingScript (entries leftPosition _ _ atLeft atRight)
  obtain ⟨positions, codes⟩ := signedScript_inj nonempty scripts
  refine ⟨positions, codes, version, locktime, outputs, count, ?_⟩
  intro index first second atFirst atSecond
  have entry := entries index first second atFirst atSecond
  have hash := congrArg Input.previousHash entry
  have outputIndex := congrArg Input.outputIndex entry
  have sequence := congrArg Input.sequence entry
  exact ⟨hash, outputIndex, sequence⟩

/-- Equal preimages are preimages of one signed form. -/
theorem Transaction.signedForm_of_preimage {left right : Transaction}
    {leftPosition rightPosition : Nat} {leftScript rightScript : Bytes}
    (leftDeclarable : left.Declarable) (rightDeclarable : right.Declarable)
    (leftInside : leftPosition < left.inputs.length)
    (rightInside : rightPosition < right.inputs.length)
    (leftFits : leftScript.length ≤ maxDeclared) (rightFits : rightScript.length ≤ maxDeclared)
    (same : left.preimage leftPosition leftScript = right.preimage rightPosition rightScript) :
    (left.signedForm leftPosition leftScript).relabelled =
      (right.signedForm rightPosition rightScript).relabelled := by
  rw [preimage_eq leftInside, preimage_eq rightInside, Except.ok.injEq] at same
  exact (encode_append_inj (signedForm_declarable leftDeclarable leftFits _)
    (signedForm_declarable rightDeclarable rightFits _) same).1

/-- Only the signing of an input that is there gives a preimage. -/
theorem Transaction.inside_of_preimage {transaction : Transaction} {position : Nat}
    {script bytes : Bytes} (written : transaction.preimage position script = .ok bytes) :
    position < transaction.inputs.length := by
  by_cases inside : position < transaction.inputs.length
  · exact inside
  · rw [preimage, if_neg inside] at written
    cases written

theorem length_payToKeyHash (hash : Octets 20) : (payToKeyHash hash).length = 25 := by
  simp [payToKeyHash, hash.length_eq]

/-- A signing preimage carries a script code that pays to a key hash. -/
theorem Transaction.preimage_of_signingPreimage {transaction : Transaction} {position : Nat}
    {bytes : Bytes} (signing : transaction.signingPreimage position = .ok bytes) :
    ∃ hash : Octets 20, transaction.preimage position (payToKeyHash hash) = .ok bytes := by
  rw [signingPreimage, preimageFrom, bind_eq_ok] at signing
  obtain ⟨input, -, sourced⟩ := signing
  obtain ⟨script, derived, written⟩ := bind_eq_ok.mp sourced
  obtain ⟨key, -, rfl⟩ := map_eq_ok.mp derived
  exact ⟨key.hash, written⟩

/-- The bytes that an input signs show its position. -/
theorem Transaction.signingPreimage_position {transaction : Transaction} {first second : Nat}
    {bytes : Bytes} (declarable : transaction.Declarable)
    (atFirst : transaction.signingPreimage first = .ok bytes)
    (atSecond : transaction.signingPreimage second = .ok bytes) : first = second := by
  obtain ⟨firstHash, firstWritten⟩ := preimage_of_signingPreimage atFirst
  obtain ⟨secondHash, secondWritten⟩ := preimage_of_signingPreimage atSecond
  have fits (hash : Octets 20) : (payToKeyHash hash).length ≤ maxDeclared := by
    rw [length_payToKeyHash]
    decide
  have nonempty : payToKeyHash firstHash ≠ [] := List.cons_ne_nil _ _
  have firstInside := inside_of_preimage firstWritten
  have forms := signedForm_of_preimage declarable declarable firstInside
    (inside_of_preimage secondWritten) (fits firstHash) (fits secondHash)
    (firstWritten.trans secondWritten.symm)
  exact (signedForm_inj firstInside nonempty forms).1

/-- Equal preimages come from one position, one script code and one content to be signed, so two
positions of one transaction never sign the same bytes. -/
theorem Transaction.preimage_inj {left : Transaction} (leftDeclarable : left.Declarable) :
    (∀ (right : Transaction) (leftPosition rightPosition : Nat) (leftScript rightScript : Bytes),
      right.Declarable → leftPosition < left.inputs.length → rightPosition < right.inputs.length →
      leftScript ≠ [] → leftScript.length ≤ maxDeclared → rightScript.length ≤ maxDeclared →
      left.preimage leftPosition leftScript = right.preimage rightPosition rightScript →
      leftPosition = rightPosition ∧ leftScript = rightScript ∧ left.SameUnsigned right) ∧
    ∀ (first second : Nat) (firstBytes secondBytes : Bytes), first ≠ second →
      left.signingPreimage first = .ok firstBytes →
      left.signingPreimage second = .ok secondBytes → firstBytes ≠ secondBytes := by
  refine ⟨?_, ?_⟩
  · intro right leftPosition rightPosition leftScript rightScript rightDeclarable leftInside
      rightInside nonempty leftFits rightFits same
    have forms := signedForm_of_preimage leftDeclarable rightDeclarable leftInside rightInside
      leftFits rightFits same
    exact signedForm_inj leftInside nonempty forms
  · intro first second firstBytes secondBytes distinct atFirst atSecond same
    rw [← same] at atSecond
    exact distinct (signingPreimage_position leftDeclarable atFirst atSecond)

/-- This transaction has the content of the other one, without its scripts and labels. -/
def strippedTwinSpend : Transaction :=
  { twinSpend with inputs := twinSpend.inputs.map fun input => (input.withScript []).withId 0 }

theorem strippedTwinSpend_declarable : strippedTwinSpend.Declarable :=
  ⟨by decide, by decide, by decide, by decide⟩

/-- One preimage fits both, and it tells the position, the script code and the content. -/
theorem strippedTwinSpend_preimage :
    twinSpend.preimage 1 [0x51] = strippedTwinSpend.preimage 1 [0x51] ∧
      twinSpend.SameUnsigned strippedTwinSpend := by
  have same : twinSpend.preimage 1 [0x51] = strippedTwinSpend.preimage 1 [0x51] := rfl
  have parts := (Transaction.preimage_inj twinSpend_declarable).1 strippedTwinSpend 1 1 [0x51]
    [0x51] strippedTwinSpend_declarable (by decide) (by decide) (by decide) (by decide) (by decide)
    same
  exact ⟨same, parts.2.2⟩

end CoinSpend
