/-
This file states that reading a transaction and writing it are inverse to each other.
-/

import CoinSpend.Proofs.CompactSize
import CoinSpend.Proofs.Transaction.Labels
import CoinSpend.Transaction.Decoding

namespace CoinSpend

/-- A limit admits a value that can be declared at all and does not exceed the cap. -/
def Limits.Admits (limits : Limits) (quantity : Quantity) (value : Nat) : Prop :=
  value ≤ maxDeclared ∧ value ≤ limits.cap quantity

/-- Every count and every length of the transaction satisfies a condition on its quantity. -/
structure Transaction.Measures (transaction : Transaction) (admits : Quantity → Nat → Prop) :
    Prop where
  inputCount : admits .inputCount transaction.inputs.length
  unlockingScripts : ∀ input ∈ transaction.inputs,
    admits .unlockingScriptLength input.unlockingScript.length
  outputCount : admits .outputCount transaction.outputs.length
  lockingScripts : ∀ output ∈ transaction.outputs,
    admits .lockingScriptLength output.lockingScript.length

/-- Every count and every length of the transaction can be declared. -/
def Transaction.Declarable (transaction : Transaction) : Prop :=
  transaction.Measures fun _ value => value ≤ maxDeclared

/-- Without limits everything that can be declared is admitted. -/
theorem Limits.unlimited_admits {quantity : Quantity} {value : Nat} :
    Limits.unlimited.Admits quantity value ↔ value ≤ maxDeclared := by
  have uncapped : Limits.unlimited.cap quantity = maxDeclared := by
    cases quantity <;> rfl
  rw [Admits, uncapped]
  exact and_self_iff

theorem Transaction.measures_unlimited {transaction : Transaction} :
    transaction.Measures Limits.unlimited.Admits ↔ transaction.Declarable := by
  have admits : Limits.unlimited.Admits = fun _ value => value ≤ maxDeclared := by
    funext quantity value
    exact propext Limits.unlimited_admits
  rw [admits, Declarable]

/-- A check passes exactly below the cap, and it reads nothing. -/
theorem Limits.check_run_ok {limits : Limits} {quantity : Quantity} {value : Nat} {result : Unit}
    {cursor next : Cursor} :
    (limits.check quantity value).run cursor = .ok (result, next) ↔
      value ≤ limits.cap quantity ∧ next = cursor := by
  rw [check]
  by_cases above : limits.cap quantity < value
  · rw [if_pos above, Decoder.run]
    apply Iff.intro
    · intro impossible
      cases impossible
    · intro parts
      exact absurd parts.1 (Nat.not_le_of_lt above)
  · rw [if_neg above, Decoder.pure_eq, Decoder.done_run_ok]
    exact and_congr_left fun _ => ⟨fun _ => Nat.le_of_not_lt above, fun _ => rfl⟩

theorem Limits.declared_inverts (limits : Limits) (quantity : Quantity) :
    (limits.declared quantity).Inverts CompactSize.encode (limits.Admits quantity) := by
  intro cursor next value
  simp only [declared, Decoder.bind_eq, Decoder.bind_run_ok, CompactSize.decoder_inverts.run_ok,
    check_run_ok, Decoder.pure_eq, Decoder.done_run_ok]
  apply Iff.intro
  · intro accepted
    obtain ⟨number, middle, ⟨small, passes⟩, _, after, ⟨below, rfl⟩, rfl, rfl⟩ := accepted
    exact ⟨⟨small, below⟩, passes⟩
  · intro parts
    obtain ⟨⟨small, below⟩, passes⟩ := parts
    exact ⟨value, next, ⟨small, passes⟩, (), next, ⟨below, rfl⟩, rfl, rfl⟩

/-- A script is read together with the length in front of it. -/
theorem encodeScript_run_ok {limits : Limits} {quantity : Quantity} {field : Field}
    {cursor next : Cursor} {script : Bytes} :
    (∃ length middle, (limits.declared quantity).run cursor = .ok (length, middle) ∧
        (Decoder.block field length).run middle = .ok (script, next)) ↔
      limits.Admits quantity script.length ∧ cursor.Passes (encodeScript script) next := by
  simp only [(limits.declared_inverts quantity).run_ok, (Decoder.block_inverts _ _).run_ok,
    encodeScript, Cursor.passes_append]
  apply Iff.intro
  · intro accepted
    obtain ⟨length, middle, ⟨admitted, passes⟩, rfl, after⟩ := accepted
    exact ⟨admitted, middle, passes, after⟩
  · intro parts
    obtain ⟨admitted, middle, passes, after⟩ := parts
    exact ⟨script.length, middle, ⟨admitted, passes⟩, rfl, after⟩

theorem Input.decodeHash_inverts (position count : Nat) :
    (Input.decodeHash position count).Inverts (fun hash => hash.reverse.bytes) fun _ => True := by
  intro cursor next hash
  rw [decodeHash, Decoder.take_run_ok]
  simp only [Decoder.done_run_ok, true_and]
  apply Iff.intro
  · intro accepted
    obtain ⟨octets, middle, passes, rfl, rfl⟩ := accepted
    rwa [Octets.reverse_reverse]
  · intro passes
    exact ⟨hash.reverse, next, passes, hash.reverse_reverse.symm, rfl⟩

theorem Input.decoder_inverts (limits : Limits) (count position : Nat) :
    (Input.decoder limits count position).Inverts Input.encode fun input =>
      limits.Admits .unlockingScriptLength input.unlockingScript.length ∧ input.id = position := by
  intro cursor next input
  simp only [Input.decoder, Decoder.bind_eq, Decoder.bind_run_ok,
    (decodeHash_inverts _ _).run_ok, Decoder.word32_inverts.run_ok, true_and, Decoder.pure_eq,
    Decoder.done_run_ok]
  apply Iff.intro
  · intro accepted
    obtain ⟨hash, first, hashPasses, index, second, indexPasses, length, third, declared, script,
      fourth, block, sequence, last, sequencePasses, rfl, rfl⟩ := accepted
    obtain ⟨admitted, scriptPasses⟩ := encodeScript_run_ok.mp ⟨length, third, declared, block⟩
    refine ⟨⟨admitted, rfl⟩, ?_⟩
    simp only [encode, encodeOutpoint, Cursor.passes_append]
    exact ⟨fourth, ⟨second, ⟨first, hashPasses, indexPasses⟩, scriptPasses⟩, sequencePasses⟩
  · intro parts
    obtain ⟨⟨admitted, rfl⟩, passes⟩ := parts
    simp only [encode, encodeOutpoint, Cursor.passes_append] at passes
    obtain ⟨fourth, ⟨second, ⟨first, hashPasses, indexPasses⟩, scriptPasses⟩, sequencePasses⟩ :=
      passes
    obtain ⟨length, third, declared, block⟩ := encodeScript_run_ok.mpr ⟨admitted, scriptPasses⟩
    exact ⟨_, first, hashPasses, _, second, indexPasses, length, third, declared, _, fourth, block,
      _, next, sequencePasses, rfl, rfl⟩

theorem Output.decoder_inverts (limits : Limits) :
    (Output.decoder limits).Inverts Output.encode fun output =>
      limits.Admits .lockingScriptLength output.lockingScript.length := by
  intro cursor next output
  simp only [Output.decoder, Decoder.bind_eq, Decoder.bind_run_ok, Decoder.word64_inverts.run_ok,
    true_and, Decoder.pure_eq, Decoder.done_run_ok]
  apply Iff.intro
  · intro accepted
    obtain ⟨amount, first, amountPasses, length, second, declared, script, last, block, rfl, rfl⟩ :=
      accepted
    obtain ⟨admitted, scriptPasses⟩ := encodeScript_run_ok.mp ⟨length, second, declared, block⟩
    refine ⟨admitted, ?_⟩
    rw [encode, Cursor.passes_append]
    exact ⟨first, amountPasses, scriptPasses⟩
  · intro parts
    obtain ⟨admitted, passes⟩ := parts
    rw [encode, Cursor.passes_append] at passes
    obtain ⟨first, amountPasses, scriptPasses⟩ := passes
    obtain ⟨length, second, declared, block⟩ := encodeScript_run_ok.mpr ⟨admitted, scriptPasses⟩
    exact ⟨_, first, amountPasses, length, second, declared, _, next, block, rfl, rfl⟩

theorem Transaction.decodeOutputCount_inverts (limits : Limits) :
    (decodeOutputCount limits).Inverts CompactSize.encode fun count =>
      count ≠ 0 ∧ limits.Admits .outputCount count := by
  intro cursor next count
  simp only [decodeOutputCount, Decoder.bind_eq, Decoder.bind_run_ok,
    CompactSize.decoder_inverts.run_ok]
  apply Iff.intro
  · intro accepted
    obtain ⟨number, middle, ⟨small, passes⟩, checked⟩ := accepted
    by_cases zero : number = 0
    · simp [zero, Decoder.run] at checked
    · simp only [if_neg zero, Decoder.bind_run_ok, Limits.check_run_ok, Decoder.pure_eq,
        Decoder.done_run_ok] at checked
      obtain ⟨_, after, ⟨below, rfl⟩, rfl, rfl⟩ := checked
      exact ⟨⟨zero, small, below⟩, passes⟩
  · intro parts
    obtain ⟨⟨nonzero, small, below⟩, passes⟩ := parts
    refine ⟨count, next, ⟨small, passes⟩, ?_⟩
    simp only [if_neg nonzero, Decoder.bind_run_ok, Limits.check_run_ok, Decoder.pure_eq,
      Decoder.done_run_ok]
    exact ⟨(), next, ⟨below, rfl⟩, trivial, rfl⟩

/-- A count of zero outputs is refused, whatever the limits are. -/
theorem Transaction.decodeOutputCount_zero {limits : Limits} {cursor next : Cursor}
    (passes : cursor.Passes (CompactSize.encode 0) next) :
    (decodeOutputCount limits).run cursor = .error .noOutputs := by
  have count : CompactSize.decoder.run cursor = .ok (0, next) :=
    CompactSize.decoder_inverts.run_ok.mpr ⟨Nat.zero_le _, passes⟩
  rw [decodeOutputCount, Decoder.bind_eq, Decoder.bind_run_error]
  exact .inr ⟨0, next, count, rfl⟩

/-- The limits hold for a list of inputs read at successive positions. -/
theorem inputs_legal_iff {limits : Limits} {inputs : List Input} :
    (∀ index (inside : index < inputs.length),
        limits.Admits .unlockingScriptLength inputs[index].unlockingScript.length ∧
          inputs[index].id = index) ↔
      (∀ input ∈ inputs, limits.Admits .unlockingScriptLength input.unlockingScript.length) ∧
        labelled inputs = inputs := by
  rw [labelled_eq_self_iff, List.forall_mem_iff_forall_getElem]
  exact ⟨fun both => ⟨fun index inside => (both index inside).1,
    fun index inside => (both index inside).2⟩,
    fun both index inside => ⟨both.1 index inside, both.2 index inside⟩⟩

/-- A transaction is read exactly from its encoding; limits, an output and labels are needed. -/
theorem Transaction.decoder_inverts (limits : Limits) :
    (decoder limits).Inverts encode fun transaction =>
      transaction.Measures limits.Admits ∧ transaction.outputs ≠ [] ∧
        labelled transaction.inputs = transaction.inputs := by
  intro cursor next transaction
  simp only [decoder, Decoder.bind_eq, Decoder.bind_run_ok, Decoder.word32_inverts.run_ok,
    (limits.declared_inverts _).run_ok, (decodeOutputCount_inverts limits).run_ok,
    (Decoder.many_inverts (Input.decoder_inverts limits _) _).run_ok,
    (Decoder.many_inverts (fun _ => Output.decoder_inverts limits) _).run_ok, inputs_legal_iff,
    true_and, Decoder.pure_eq, Decoder.done_run_ok, encode, encodeHead, encodeTail,
    Cursor.passes_append]
  apply Iff.intro
  · intro accepted
    obtain ⟨version, first, versionPasses, inputCount, second, ⟨inputsAdmitted, countPasses⟩,
      inputs, third, ⟨⟨rfl, scripts, labels⟩, inputsPass⟩, outputCount, fourth,
      ⟨⟨someOutput, outputsAdmitted⟩, outputCountPasses⟩, outputs, fifth,
      ⟨⟨rfl, eachScript⟩, outputsPass⟩, locktime, last, locktimePasses, rfl, rfl⟩ := accepted
    have lockingScripts : ∀ output ∈ outputs,
        limits.Admits .lockingScriptLength output.lockingScript.length :=
      List.forall_mem_iff_forall_getElem.mpr eachScript
    have nonempty : outputs ≠ [] := List.ne_nil_of_length_pos (Nat.pos_of_ne_zero someOutput)
    exact ⟨⟨⟨inputsAdmitted, scripts, outputsAdmitted, lockingScripts⟩, nonempty, labels⟩, third,
      ⟨second, ⟨first, versionPasses, countPasses⟩, inputsPass⟩, fifth,
      ⟨fourth, outputCountPasses, outputsPass⟩, locktimePasses⟩
  · intro parts
    obtain ⟨⟨measures, nonempty, labels⟩, third,
      ⟨second, ⟨first, versionPasses, countPasses⟩, inputsPass⟩, fifth,
      ⟨fourth, outputCountPasses, outputsPass⟩, locktimePasses⟩ := parts
    have someOutput : transaction.outputs.length ≠ 0 := by
      rwa [ne_eq, List.length_eq_zero_iff]
    have eachScript := List.forall_mem_iff_forall_getElem.mp measures.lockingScripts
    exact ⟨_, first, versionPasses, _, second, ⟨measures.inputCount, countPasses⟩, _, third,
      ⟨⟨rfl, measures.unlockingScripts, labels⟩, inputsPass⟩, _, fourth,
      ⟨⟨someOutput, measures.outputCount⟩, outputCountPasses⟩, _, fifth,
      ⟨⟨rfl, eachScript⟩, outputsPass⟩, _, next, locktimePasses, rfl, rfl⟩

/-- Whole byte strings are accepted exactly when they are the encoding of the result. -/
theorem Transaction.decodeWithin_ok {limits : Limits} {bytes : Bytes} {transaction : Transaction} :
    decodeWithin limits bytes = .ok transaction ↔
      (transaction.Measures limits.Admits ∧ transaction.outputs ≠ [] ∧
        labelled transaction.inputs = transaction.inputs) ∧ bytes = transaction.encode :=
  (decoder_inverts limits).runAll_ok

end CoinSpend
