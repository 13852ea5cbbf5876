/-
This file states that more bytes never change the verdict on a transaction, except where the
transaction was cut short.
-/

import CoinSpend.Proofs.Decoder.Extension
import CoinSpend.Transaction.Decoding

namespace CoinSpend

/-- These faults report bytes that are not there. -/
inductive Fault.Shortage : Fault → Prop where
  | unexpectedEnd (field : Field) (needed offset available : Nat) :
      Shortage (.unexpectedEnd field needed offset available)
  | missingPreviousHash (position count : Nat) : Shortage (.missingPreviousHash position count)

/-- These faults refuse bytes that were read. -/
inductive Fault.Definite : Fault → Prop where
  | nonMinimal (value offset : Nat) : Definite (.nonMinimal value offset)
  | exceedsLimit (quantity : Quantity) (value limit : Nat) :
      Definite (.exceedsLimit quantity value limit)
  | noOutputs : Definite .noOutputs

/-- A decoder tells apart what lacks bytes and what is refused for good. -/
abbrev Decoder.TellsApart {A : Type} (decoder : Decoder A) : Prop :=
  decoder.Reports Fault.Shortage Fault.Definite

theorem Decoder.number_tellsApart (field : Field) (width : Nat) :
    (number field width).TellsApart :=
  ⟨fun _ _ => .unexpectedEnd _ _ _ _, fun _ => trivial⟩

theorem Decoder.block_tellsApart (field : Field) (size : Nat) :
    (block field size).TellsApart :=
  ⟨fun _ _ => .unexpectedEnd _ _ _ _, fun _ => trivial⟩

theorem Decoder.byte_tellsApart : byte.TellsApart :=
  (number_tellsApart .byte 1).bind fun _ => trivial

theorem Decoder.word32_tellsApart : word32.TellsApart :=
  (number_tellsApart .word32 4).bind fun _ => trivial

theorem Decoder.word64_tellsApart : word64.TellsApart :=
  (number_tellsApart .word64 8).bind fun _ => trivial

theorem CompactSize.payload_tellsApart (form : Form) (tag : UInt8) :
    (form.payload tag).TellsApart := by
  cases form with
  | bare => trivial
  | short => exact Decoder.number_tellsApart .word16 2
  | medium => exact Decoder.number_tellsApart .word32 4
  | long => exact Decoder.number_tellsApart .word64 8

theorem CompactSize.decoder_tellsApart : decoder.TellsApart := by
  intro start
  apply Decoder.byte_tellsApart.bind
  intro tag
  apply (payload_tellsApart (Form.ofTag tag) tag).bind
  intro value
  split
  · trivial
  · exact .nonMinimal value start

theorem Limits.check_tellsApart (limits : Limits) (quantity : Quantity) (value : Nat) :
    (limits.check quantity value).TellsApart := by
  unfold check
  split
  · exact .exceedsLimit quantity value (limits.cap quantity)
  · trivial

theorem Limits.declared_tellsApart (limits : Limits) (quantity : Quantity) :
    (limits.declared quantity).TellsApart := by
  apply CompactSize.decoder_tellsApart.bind
  intro value
  exact (limits.check_tellsApart quantity value).bind fun _ => trivial

theorem Input.decodeHash_tellsApart (position count : Nat) :
    (decodeHash position count).TellsApart :=
  ⟨fun _ _ => .missingPreviousHash position count, fun _ => trivial⟩

theorem Input.decoder_tellsApart (limits : Limits) (count position : Nat) :
    (Input.decoder limits count position).TellsApart := by
  apply (decodeHash_tellsApart position count).bind
  intro previousHash
  apply Decoder.word32_tellsApart.bind
  intro outputIndex
  apply (limits.declared_tellsApart .unlockingScriptLength).bind
  intro length
  apply (Decoder.block_tellsApart .unlockingScript length).bind
  intro unlockingScript
  exact Decoder.word32_tellsApart.bind fun _ => trivial

theorem Output.decoder_tellsApart (limits : Limits) : (Output.decoder limits).TellsApart := by
  apply Decoder.word64_tellsApart.bind
  intro amount
  apply (limits.declared_tellsApart .lockingScriptLength).bind
  intro length
  exact (Decoder.block_tellsApart .lockingScript length).bind fun _ => trivial

theorem Transaction.decodeOutputCount_tellsApart (limits : Limits) :
    (decodeOutputCount limits).TellsApart := by
  apply CompactSize.decoder_tellsApart.bind
  intro count
  split
  · exact .noOutputs
  · exact (limits.check_tellsApart .outputCount count).bind fun _ => trivial

theorem Transaction.decoder_tellsApart (limits : Limits) : (decoder limits).TellsApart := by
  apply Decoder.word32_tellsApart.bind
  intro version
  apply (limits.declared_tellsApart .inputCount).bind
  intro inputCount
  apply (Decoder.Reports.many (Input.decoder_tellsApart limits inputCount) inputCount).bind
  intro inputs
  apply (decodeOutputCount_tellsApart limits).bind
  intro outputCount
  apply (Decoder.Reports.many (fun _ => Output.decoder_tellsApart limits) outputCount).bind
  intro outputs
  exact Decoder.word32_tellsApart.bind fun _ => trivial

/-- A refused byte string lacks bytes, is refused for good, or has bytes left over. -/
theorem Transaction.decodeWithin_error {limits : Limits} {bytes : Bytes} {fault : Fault}
    (refused : decodeWithin limits bytes = .error fault) :
    fault.Shortage ∨
      (fault.Definite ∧ ∀ suffix, decodeWithin limits (bytes ++ suffix) = .error fault) ∨
      ∃ count, fault = .trailingBytes count ∧
        ∀ suffix, decodeWithin limits (bytes ++ suffix) =
          .error (.trailingBytes (count + suffix.length)) :=
  (decoder_tellsApart limits).runAll_error refused

/-- More bytes are left over behind an accepted byte string, add to what is left over already, and
leave every definite fault as it is; only what was cut short can be completed. -/
theorem Transaction.decodeWithin_append (limits : Limits) (bytes suffix : Bytes)
    (more : suffix ≠ []) :
    (∀ transaction, decodeWithin limits bytes = .ok transaction →
      decodeWithin limits (bytes ++ suffix) = .error (.trailingBytes suffix.length)) ∧
    (∀ count, decodeWithin limits bytes = .error (.trailingBytes count) →
      decodeWithin limits (bytes ++ suffix) = .error (.trailingBytes (count + suffix.length))) ∧
    (∀ fault, fault.Definite → decodeWithin limits bytes = .error fault →
      decodeWithin limits (bytes ++ suffix) = .error fault) ∧
    (∀ fault transaction, decodeWithin limits bytes = .error fault →
      decodeWithin limits (bytes ++ suffix) = .ok transaction → fault.Shortage) ∧
    (∀ count, (Fault.trailingBytes count).code.label = "TX_ERR_PARSE" ∧
      (Fault.trailingBytes count).message = s!"{count} trailing bytes after locktime") := by
  refine ⟨fun transaction accepted => Decoder.runAll_extend_ok accepted more, ?_, ?_, ?_,
    fun count => ⟨rfl, rfl⟩⟩
  · intro count refused
    rcases decodeWithin_error refused with lacking | ⟨kind, -⟩ | ⟨other, same, settled⟩
    · cases lacking
    · cases kind
    · cases same
      exact settled suffix
  · intro fault kind refused
    rcases decodeWithin_error refused with lacking | ⟨-, settled⟩ | ⟨count, rfl, -⟩
    · cases kind <;> cases lacking
    · exact settled suffix
    · cases kind
  · intro fault transaction refused accepted
    rcases decodeWithin_error refused with lacking | ⟨-, settled⟩ | ⟨count, -, settled⟩
    · exact lacking
    · rw [settled suffix] at accepted
      cases accepted
    · rw [settled suffix] at accepted
      cases accepted

/-- The last byte completes a transaction, two more are left over, and a count above its limit stays
above it. -/
theorem Transaction.decodeWithin_append_tight :
    (∃ fault, decodeWithin ⟨0, 1, 0⟩ [1, 0, 0, 0, 0, 1, 9, 0, 0, 0, 0, 0, 0, 0, 0, 3, 0, 0] =
        .error fault ∧ fault.Shortage) ∧
      decodeWithin ⟨0, 1, 0⟩
        ([1, 0, 0, 0, 0, 1, 9, 0, 0, 0, 0, 0, 0, 0, 0, 3, 0, 0, 0] ++ [7, 7]) =
        .error (.trailingBytes 2) ∧
      decodeWithin ⟨0, 1, 0⟩ ([1, 0, 0, 0, 2] ++ [7]) = .error (.exceedsLimit .inputCount 2 0) := by
  have accepted : decodeWithin ⟨0, 1, 0⟩
      [1, 0, 0, 0, 0, 1, 9, 0, 0, 0, 0, 0, 0, 0, 0, 3, 0, 0, 0] = .ok ⟨1, [], [⟨9, []⟩], 3⟩ := rfl
  have short : decodeWithin ⟨0, 1, 0⟩ [1, 0, 0, 0, 0, 1, 9, 0, 0, 0, 0, 0, 0, 0, 0, 3, 0, 0] =
      .error (.unexpectedEnd .word32 4 15 3) := rfl
  have above : decodeWithin ⟨0, 1, 0⟩ [1, 0, 0, 0, 2] = .error (.exceedsLimit .inputCount 2 0) :=
    rfl
  exact ⟨⟨_, short, (decodeWithin_append _ _ [0] (by decide)).2.2.2.1 _ _ short accepted⟩,
    (decodeWithin_append _ _ [7, 7] (by decide)).1 _ accepted,
    (decodeWithin_append _ _ [7] (by decide)).2.2.1 _ (.exceedsLimit _ _ _) above⟩

end CoinSpend
