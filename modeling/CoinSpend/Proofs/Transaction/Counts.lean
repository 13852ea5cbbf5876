/-
This file states that no count of inputs or outputs gets past the bytes that are there.
-/

import CoinSpend.Proofs.Decoder.Loop
import CoinSpend.Proofs.Transaction.Length
import CoinSpend.Proofs.Transaction.Text

namespace CoinSpend

/-- No input is shorter than one with an empty script. -/
theorem Input.le_encodedLength (input : Input) :
    (input.withScript []).encodedLength = 41 ∧ 41 ≤ input.encodedLength := by
  have emptied := input.encodedLength_emptied
  have least : (input.withScript []).encodedLength = 41 := rfl
  omega

/-- No output is shorter than one with an empty script. -/
theorem Output.le_encodedLength (output : Output) :
    (Output.mk output.amount []).encodedLength = 9 ∧ 9 ≤ output.encodedLength := by
  have positive := CompactSize.size_pos output.lockingScript.length
  refine ⟨rfl, ?_⟩
  unfold encodedLength
  omega

/-- A decoder that inverts a writer uses up what is written. -/
theorem Decoder.Inverts.consumes {A : Type} {decoder : Decoder A} {write : A → Bytes}
    {legal : A → Prop} (inverts : decoder.Inverts write legal) {least : Nat}
    (bound : ∀ value, least ≤ (write value).length) : decoder.Consumes least := by
  intro cursor next value ran
  obtain ⟨-, passes⟩ := inverts.run_ok.mp ran
  have found := congrArg List.length passes.found
  have size := bound value
  rw [List.length_append] at found
  omega

theorem Input.decoder_consumes (limits : Limits) (count position : Nat) :
    (Input.decoder limits count position).Consumes 41 := by
  apply (decoder_inverts limits count position).consumes
  intro input
  rw [length_encode]
  exact input.le_encodedLength.2

theorem Output.decoder_consumes (limits : Limits) : (Output.decoder limits).Consumes 9 := by
  apply (decoder_inverts limits).consumes
  intro output
  rw [length_encode]
  exact output.le_encodedLength.2

theorem le_totalLength {A : Type} {length : A → Nat} {least : Nat}
    (bound : ∀ item, least ≤ length item) (items : List A) :
    least * items.length ≤ totalLength length items := by
  induction items with
  | nil => simp
  | cons item items ih =>
      have first := bound item
      rw [totalLength_cons, List.length_cons, Nat.mul_succ]
      omega

theorem Transaction.le_encodedLength (transaction : Transaction) :
    10 + 41 * transaction.inputs.length + 9 * transaction.outputs.length ≤
      transaction.encodedLength := by
  have inputs := le_totalLength (fun input => (Input.le_encodedLength input).2) transaction.inputs
  have outputs := le_totalLength (fun output => (Output.le_encodedLength output).2)
    transaction.outputs
  have inputCount := CompactSize.size_pos transaction.inputs.length
  have outputCount := CompactSize.size_pos transaction.outputs.length
  unfold encodedLength
  omega

/-- This decoder stops behind the declared number of inputs. -/
def Transaction.inputCountDecoder : Decoder Nat := do
  let _ ← Decoder.word32
  CompactSize.decoder

/-- This decoder stops behind the declared number of outputs. -/
def Transaction.outputCountDecoder (limits : Limits) : Decoder Nat := do
  let _ ← Decoder.word32
  let inputCount ← limits.declared .inputCount
  let _ ← Decoder.many inputCount (Input.decoder limits inputCount)
  CompactSize.decoder

section

variable {limits : Limits} {bytes : Bytes} {transaction : Transaction} {cursor : Cursor}

/-- An accepted transaction has as many inputs and outputs as its bytes declare, and both were
pushed from there. -/
theorem Transaction.declared_of_decodeWithin
    (accepted : decodeWithin limits bytes = .ok transaction) :
    (∃ start next,
      inputCountDecoder.run (Cursor.at bytes 0) = .ok (transaction.inputs.length, start) ∧
        Decoder.Pushes (Input.decoder limits transaction.inputs.length) start transaction.inputs
          next) ∧
      ∃ start next,
        (outputCountDecoder limits).run (Cursor.at bytes 0) =
            .ok (transaction.outputs.length, start) ∧
          Decoder.Pushes (fun _ => Output.decoder limits) start transaction.outputs next := by
  obtain ⟨last, ran, -⟩ := Decoder.runAll_eq_ok.mp accepted
  simp only [decoder, Decoder.bind_eq, Decoder.bind_run_ok, Decoder.pure_eq,
    Decoder.done_run_ok] at ran
  obtain ⟨version, first, versionRan, inputCount, second, inputCountRan, inputs, third, inputsRan,
    outputCount, fourth, outputCountRan, outputs, fifth, outputsRan, locktime, sixth, -, rfl,
    rfl⟩ := ran
  obtain ⟨⟨small, -⟩, passes⟩ := (limits.declared_inverts _).run_ok.mp inputCountRan
  obtain ⟨⟨-, outputSmall, -⟩, outputPasses⟩ :=
    (decodeOutputCount_inverts limits).run_ok.mp outputCountRan
  obtain ⟨inputsPushed, rfl⟩ := Decoder.pushes_of_many inputsRan
  obtain ⟨outputsPushed, rfl⟩ := Decoder.pushes_of_many outputsRan
  have inputCountRead := CompactSize.decoder_inverts.run_ok.mpr ⟨small, passes⟩
  have outputCountRead := CompactSize.decoder_inverts.run_ok.mpr ⟨outputSmall, outputPasses⟩
  refine ⟨⟨second, third, ?_, inputsPushed⟩, fourth, fifth, ?_, outputsPushed⟩
  · simp only [inputCountDecoder, Decoder.bind_eq, Decoder.bind_run_ok]
    exact ⟨version, first, versionRan, inputCountRead⟩
  · simp only [outputCountDecoder, Decoder.bind_eq, Decoder.bind_run_ok]
    exact ⟨version, first, versionRan, _, second, inputCountRan, _, third, inputsRan,
      outputCountRead⟩

/-- Bytes that are not accepted are refused by a fault of the parse class. -/
theorem Transaction.refused_of_not_accepted
    (never : ∀ transaction, decodeWithin limits bytes ≠ .ok transaction) :
    ∃ fault, decodeWithin limits bytes = .error fault ∧ fault.code.label = "TX_ERR_PARSE" := by
  cases outcome : decodeWithin limits bytes with
  | ok transaction => exact absurd outcome (never transaction)
  | error fault => exact ⟨fault, rfl, by rw [code_of_decodeWithin_error outcome]; rfl⟩

end

/-- A count that outruns the bytes behind it is refused, however large it is; an accepted count is
the smaller of itself and of what could fit; and no loop, whether it succeeds or fails, ever holds
more items than fit. -/
theorem Transaction.counts_fit (limits : Limits) (bytes : Bytes) :
    (∀ count start, inputCountDecoder.run (Cursor.at bytes 0) = .ok (count, start) →
      (start.rest.length / 41 < count → ∃ fault,
        decodeWithin limits bytes = .error fault ∧ fault.code.label = "TX_ERR_PARSE") ∧
      Decoder.LoopWithin (Input.decoder limits count) count start (start.rest.length / 41)) ∧
    (∀ count start, (outputCountDecoder limits).run (Cursor.at bytes 0) = .ok (count, start) →
      (start.rest.length / 9 < count → ∃ fault,
        decodeWithin limits bytes = .error fault ∧ fault.code.label = "TX_ERR_PARSE") ∧
      Decoder.LoopWithin (fun _ => Output.decoder limits) count start (start.rest.length / 9)) ∧
    ∀ transaction, decodeWithin limits bytes = .ok transaction →
      (∃ count start, inputCountDecoder.run (Cursor.at bytes 0) = .ok (count, start) ∧
        transaction.inputs.length = count ∧
        min count (start.rest.length / 41) = transaction.inputs.length) ∧
      (∃ count start, (outputCountDecoder limits).run (Cursor.at bytes 0) = .ok (count, start) ∧
        transaction.outputs.length = count ∧
        min count (start.rest.length / 9) = transaction.outputs.length) ∧
      10 + 41 * transaction.inputs.length + 9 * transaction.outputs.length ≤ bytes.length := by
  have inputLoop (count : Nat) (start : Cursor) :=
    Decoder.loopWithin_of_consumes (by decide) (Input.decoder_consumes limits count) count start
  have outputLoop (count : Nat) (start : Cursor) :=
    Decoder.loopWithin_of_consumes (by decide) (fun _ => Output.decoder_consumes limits) count start
  refine ⟨?_, ?_, ?_⟩
  · intro count start read
    refine ⟨?_, inputLoop count start⟩
    intro outruns
    apply refused_of_not_accepted
    intro transaction accepted
    obtain ⟨⟨found, next, declared, pushes⟩, -⟩ := declared_of_decodeWithin accepted
    cases read.symm.trans declared
    have fits := (inputLoop _ _).states _ _ pushes
    omega
  · intro count start read
    refine ⟨?_, outputLoop count start⟩
    intro outruns
    apply refused_of_not_accepted
    intro transaction accepted
    obtain ⟨-, found, next, declared, pushes⟩ := declared_of_decodeWithin accepted
    cases read.symm.trans declared
    have fits := (outputLoop 0 _).states _ _ pushes
    omega
  · intro transaction accepted
    obtain ⟨⟨inputStart, inputNext, inputsRead, inputsPushed⟩, outputStart, outputNext, outputsRead,
      outputsPushed⟩ := declared_of_decodeWithin accepted
    refine ⟨⟨_, inputStart, inputsRead, rfl, ?_⟩, ⟨_, outputStart, outputsRead, rfl, ?_⟩, ?_⟩
    · exact Nat.min_eq_left ((inputLoop _ _).states _ _ inputsPushed)
    · exact Nat.min_eq_left ((outputLoop 0 _).states _ _ outputsPushed)
    · rw [(decodeWithin_ok.mp accepted).2, length_encode]
      exact transaction.le_encodedLength

/-- The scripts of the only input and the only output are empty. -/
def leastSpend : Transaction :=
  ⟨1, [⟨Octets.littleEndian 32 5, 0, [], 0, 0⟩], [⟨50, []⟩], 0⟩

/-- The largest number of inputs is refused in front of nothing, two outputs are refused in front of
one byte too few, and the shortest transaction with an input leaves no byte over. -/
theorem leastSpend_counts :
    (∃ fault, Transaction.decode ([1, 0, 0, 0] ++ List.replicate 9 0xff) = .error fault ∧
        fault.code.label = "TX_ERR_PARSE") ∧
      (∃ fault, Transaction.decode ([1, 0, 0, 0, 0, 2] ++ List.replicate 17 0) = .error fault ∧
        fault.code.label = "TX_ERR_PARSE") ∧
      Transaction.decode leastSpend.encode = .ok leastSpend ∧
      10 + 41 * 1 + 9 * 1 ≤ leastSpend.encode.length ∧ leastSpend.encode.length = 60 := by
  have inputCount : Transaction.inputCountDecoder.run
      (Cursor.at ([1, 0, 0, 0] ++ List.replicate 9 0xff) 0) =
      .ok (0xffffffffffffffff, ⟨[], 13⟩) := rfl
  have outputCount : (Transaction.outputCountDecoder .unlimited).run
      (Cursor.at ([1, 0, 0, 0, 0, 2] ++ List.replicate 17 0) 0) =
      .ok (2, ⟨List.replicate 17 0, 6⟩) := rfl
  have accepted : Transaction.decode leastSpend.encode = .ok leastSpend := rfl
  exact ⟨((Transaction.counts_fit .unlimited _).1 _ _ inputCount).1 (by decide),
    ((Transaction.counts_fit .unlimited _).2.1 _ _ outputCount).1 (by decide), accepted,
    ((Transaction.counts_fit .unlimited _).2.2 _ accepted).2.2, rfl⟩

end CoinSpend
