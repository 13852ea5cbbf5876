/-
This file states that transactions, unlocking scripts and CompactSize values are read without a
trap, whatever lengths the bytes declare.
-/

import CoinSpend.Proofs.CompactSize.Canonical
import CoinSpend.Proofs.Decoder.Execution
import CoinSpend.Transaction.Decoding
import CoinSpend.UnlockingScript

namespace CoinSpend

/-- Every block that a decoder asks for has a size of 64 bits. -/
abbrev Decoder.AsksWords {A : Type} (decoder : Decoder A) : Prop :=
  decoder.Asks maxDeclared fun _ => True

theorem Decoder.number_asks (field : Field) {width : Nat} (narrow : width ≤ 8) :
    (number field width).Asks maxDeclared fun value => value ≤ maxDeclared := by
  refine ⟨Nat.le_trans narrow (by decide), fun octets => ?_⟩
  have bound := ofLittleEndian_lt octets.bytes
  rw [octets.length_eq] at bound
  have most : 256 ^ width ≤ 256 ^ 8 := Nat.pow_le_pow_right (by decide) narrow
  exact Nat.le_of_lt_succ (Nat.lt_of_lt_of_le bound most)

theorem Decoder.byte_asks : byte.AsksWords :=
  (number_asks .byte (by decide)).bind fun _ _ => trivial

theorem Decoder.word32_asks : word32.AsksWords :=
  (number_asks .word32 (by decide)).bind fun _ _ => trivial

theorem Decoder.word64_asks : word64.AsksWords :=
  (number_asks .word64 (by decide)).bind fun _ _ => trivial

theorem Decoder.block_asks (field : Field) {size : Nat} (small : size ≤ maxDeclared) :
    (block field size).AsksWords :=
  ⟨small, fun _ => trivial⟩

theorem byte_le_maxDeclared (byte : UInt8) : byte.toNat ≤ maxDeclared :=
  Nat.le_trans (Nat.le_of_lt byte.toNat_lt) (by decide)

theorem CompactSize.payload_asks (form : Form) (tag : UInt8) :
    (form.payload tag).Asks maxDeclared fun value => value ≤ maxDeclared := by
  cases form with
  | bare => exact byte_le_maxDeclared tag
  | short => exact Decoder.number_asks .word16 (by decide)
  | medium => exact Decoder.number_asks .word32 (by decide)
  | long => exact Decoder.number_asks .word64 (by decide)

/-- A declared value is a number of 64 bits, and so is every size that it becomes. -/
theorem CompactSize.decoder_asks :
    decoder.Asks maxDeclared fun value => value ≤ maxDeclared := by
  intro start
  apply Decoder.byte_asks.bind
  intro tag _
  apply (payload_asks (Form.ofTag tag) tag).bind
  intro value small
  split
  · exact small
  · trivial

theorem Limits.check_asks (limits : Limits) (quantity : Quantity) (value : Nat) :
    (limits.check quantity value).AsksWords := by
  unfold check
  split <;> trivial

theorem Limits.declared_asks (limits : Limits) (quantity : Quantity) :
    (limits.declared quantity).Asks maxDeclared fun value => value ≤ maxDeclared := by
  apply CompactSize.decoder_asks.bind
  intro value small
  exact (limits.check_asks quantity value).bind fun _ _ => small

theorem Input.decodeHash_asks (position count : Nat) : (decodeHash position count).AsksWords :=
  ⟨by decide, fun _ => trivial⟩

theorem Input.decoder_asks (limits : Limits) (count position : Nat) :
    (Input.decoder limits count position).AsksWords := by
  apply (decodeHash_asks position count).bind
  intro previousHash _
  apply Decoder.word32_asks.bind
  intro outputIndex _
  apply (limits.declared_asks .unlockingScriptLength).bind
  intro length small
  apply (Decoder.block_asks .unlockingScript small).bind
  intro unlockingScript _
  exact Decoder.word32_asks.bind fun _ _ => trivial

theorem Output.decoder_asks (limits : Limits) : (Output.decoder limits).AsksWords := by
  apply Decoder.word64_asks.bind
  intro amount _
  apply (limits.declared_asks .lockingScriptLength).bind
  intro length small
  exact (Decoder.block_asks .lockingScript small).bind fun _ _ => trivial

theorem Transaction.decodeOutputCount_asks (limits : Limits) :
    (decodeOutputCount limits).AsksWords := by
  apply CompactSize.decoder_asks.bind
  intro count _
  split
  · trivial
  · exact (limits.check_asks .outputCount count).bind fun _ _ => trivial

theorem Transaction.decoder_asks (limits : Limits) : (decoder limits).AsksWords := by
  apply Decoder.word32_asks.bind
  intro version _
  apply (limits.declared_asks .inputCount).bind
  intro inputCount _
  apply (Decoder.Asks.many (Input.decoder_asks limits inputCount) inputCount).bind
  intro inputs _
  apply (decodeOutputCount_asks limits).bind
  intro outputCount _
  apply (Decoder.Asks.many (fun _ => Output.decoder_asks limits) outputCount).bind
  intro outputs _
  exact Decoder.word32_asks.bind fun _ _ => trivial

theorem Push.decoder_asks (push : Push) : push.decoder.AsksWords := by
  apply Decoder.byte_asks.bind
  intro opcode _
  split
  · trivial
  · exact ⟨byte_le_maxDeclared opcode, fun _ => trivial⟩

theorem splitSignature_asks (pushed : Bytes) : (splitSignature pushed).AsksWords := by
  unfold splitSignature
  split
  · trivial
  · split <;> trivial

theorem pushesDecoder_asks : pushesDecoder.AsksWords := by
  apply (Push.decoder_asks .signature).bind
  intro pushed _
  apply (splitSignature_asks pushed).bind
  intro signature _
  exact (Push.decoder_asks .publicKey).bind fun _ _ => trivial

/-- The pushes that have used up a script become its parts. -/
def UnlockingScript.ofPushes (pushes : (Bytes × UInt8) × Bytes) :
    Except Fault UnlockingScript := do
  let key ← (PublicKey.ofBytes pushes.2).mapError .credential
  return ⟨pushes.1.1, pushes.1.2, key⟩

theorem UnlockingScript.decode_eq (script : Bytes) :
    decode script = (pushesDecoder.runAll .trailingAfterKey script).bind ofPushes := rfl

namespace CompactSize

/-- The bytes that a value occupied are the distance from its start to its stop. -/
def measure (execution : Execution Nat) (start : Nat) : Except Trap (Except Fault Item) :=
  match execution.outcome with
  | .error trap => .error trap
  | .ok (.error fault) => .ok (.error fault)
  | .ok (.ok (value, stop)) =>
      if stop < start then .error (.underflow stop start) else .ok (.ok ⟨value, stop - start⟩)

variable {bytes : Bytes} {start : Nat}

/-- At the end of the bytes or beyond it the tag is refused, and nothing else is asked for. -/
theorem execute_beyond (beyond : bytes.length ≤ start) :
    decoder.execute bytes start =
      ⟨[⟨start, 1, false⟩], .ok (.error (.unexpectedEnd .byte 1 start 0))⟩ := by
  have nothing : bytes.length - start = 0 := Nat.sub_eq_zero_of_le beyond
  have short : bytes.length - start < 1 := by omega
  change Decoder.execute bytes (.take 1 (shortField .byte 1) _) start = _
  rw [Decoder.execute, if_pos short, nothing]
  rfl

/-- An execution at any offset ends as the run there does. -/
theorem execute_outcome (addressable : bytes.length ≤ maxDeclared) (start : Nat) :
    (decoder.execute bytes start).outcome =
      .ok ((decoder.run (Cursor.at bytes start)).map fun reached =>
        (reached.1, reached.2.offset)) := by
  -- Beyond the end a decoder is executed as it is run only if it asks for some byte.
  by_cases within : start ≤ bytes.length
  · exact (decoder.execute_follows addressable within).outcome
  · have beyond : bytes.length ≤ start := by omega
    rw [execute_beyond beyond, decoder_run_missing (List.drop_eq_nil_iff.mpr beyond)]
    rfl

/-- A value that is read moves the reader by its written form. -/
theorem execute_width (addressable : bytes.length ≤ maxDeclared) {value stop : Nat}
    (ended : (decoder.execute bytes start).outcome = .ok (.ok (value, stop))) :
    start ≤ stop ∧ stop - start = consumed (decoder.execute bytes start).requests ∧
      stop - start = (encode value).length := by
  by_cases within : start ≤ bytes.length
  · have follows := decoder.execute_follows addressable within
    rw [follows.outcome] at ended
    cases ran : decoder.run (Cursor.at bytes start) with
    | error fault =>
        rw [ran] at ended
        cases ended
    | ok reached =>
        obtain ⟨result, next⟩ := reached
        obtain ⟨rfl, rfl⟩ : result = value ∧ next.offset = stop := by
          simpa [ran, Except.map] using ended
        have moved : next.offset = start + consumed (decoder.execute bytes start).requests :=
          congrArg Cursor.offset (follows.reached result next ran)
        have behind : next.offset = start + (encode result).length :=
          (decoder_inverts.run_ok.mp ran).2.behind
        exact ⟨by omega, by omega, by omega⟩
  · rw [execute_beyond (by omega)] at ended
    cases ended

theorem execute_measure (addressable : bytes.length ≤ maxDeclared) (start : Nat) :
    measure (decoder.execute bytes start) start = .ok (readAt bytes start) := by
  have ended := execute_outcome addressable start
  rw [measure]
  cases ran : decoder.run (Cursor.at bytes start) with
  | error fault =>
      rw [ran] at ended
      rw [ended, readAt_of_run_error ran]
      rfl
  | ok reached =>
      obtain ⟨value, next⟩ := reached
      rw [ran] at ended
      have forward : ¬ next.offset < start := Nat.not_lt.mpr (execute_width addressable ended).1
      rw [ended, readAt_of_run ran]
      simp only [Except.map, if_neg forward]

/-- A reader beyond the end makes one request, and that one is refused. -/
theorem execute_inBounds (addressable : bytes.length ≤ maxDeclared) (start : Nat) :
    (decoder.execute bytes start).InBounds bytes start := by
  by_cases within : start ≤ bytes.length
  · exact decoder_asks.execute_inBounds addressable within
  · have chained := decoder.execute_chained bytes start
    rw [execute_beyond (by omega)] at chained ⊢
    refine ⟨chained, ?_, ?_, ?_⟩
    · intro request member
      cases List.mem_singleton.mp member
      exact (by decide : 1 ≤ maxDeclared)
    all_goals
      intro request member granted
      cases List.mem_singleton.mp member
      cases granted

end CompactSize

/-- Bytes whose length is a number of 64 bits are read without a trap. A transaction and a script
are read from the start, and their reader never gets beyond the end. A value is read at any offset.
Beyond the end a block of no bytes would be granted and then sliced outside, but the reader of a
value asks for its tag first; and where a value is read, the distance from its start to its stop is
what the reader has moved. -/
theorem reads_in_bounds (bytes : Bytes) (addressable : bytes.length ≤ maxDeclared)
    (limits : Limits) (offset : Nat) :
    (((Transaction.decoder limits).execute bytes 0).conclude bytes .trailingBytes =
        .ok (Transaction.decodeWithin limits bytes) ∧
      ((Transaction.decoder limits).execute bytes 0).InBounds bytes 0 ∧
      ∀ request ∈ ((Transaction.decoder limits).execute bytes 0).requests,
        request.stop ≤ bytes.length) ∧
    (((pushesDecoder.execute bytes 0).conclude bytes .trailingAfterKey).map
          (fun pushes => pushes.bind UnlockingScript.ofPushes) =
        .ok (UnlockingScript.decode bytes) ∧
      (pushesDecoder.execute bytes 0).InBounds bytes 0 ∧
      ∀ request ∈ (pushesDecoder.execute bytes 0).requests, request.stop ≤ bytes.length) ∧
    (CompactSize.measure (CompactSize.decoder.execute bytes offset) offset =
        .ok (CompactSize.readAt bytes offset) ∧
      (CompactSize.decoder.execute bytes offset).InBounds bytes offset ∧
      (bytes.length < offset →
        (CompactSize.decoder.execute bytes offset).requests = [⟨offset, 1, false⟩] ∧
        (offset ≤ maxDeclared → ∀ field,
          ((Decoder.block field 0).execute bytes offset).outcome =
            .error (.outOfBounds offset offset))) ∧
      ∀ value stop, (CompactSize.decoder.execute bytes offset).outcome = .ok (.ok (value, stop)) →
        offset ≤ stop ∧
        stop - offset = consumed (CompactSize.decoder.execute bytes offset).requests ∧
        stop - offset = (CompactSize.encode value).length) := by
  have start : 0 ≤ bytes.length := Nat.zero_le _
  refine ⟨⟨?_, ?_, ?_⟩, ⟨?_, ?_, ?_⟩, ?_, ?_, ?_, ?_⟩
  · exact (Transaction.decoder limits).execute_conclude addressable .trailingBytes
  · exact (Transaction.decoder_asks limits).execute_inBounds addressable start
  · exact ((Transaction.decoder limits).execute_follows addressable start).inside
  · rw [pushesDecoder.execute_conclude addressable, UnlockingScript.decode_eq]
    rfl
  · exact pushesDecoder_asks.execute_inBounds addressable start
  · exact (pushesDecoder.execute_follows addressable start).inside
  · exact CompactSize.execute_measure addressable offset
  · exact CompactSize.execute_inBounds addressable offset
  · intro beyond
    refine ⟨?_, fun fits field => Decoder.execute_block_beyond field beyond fits⟩
    rw [CompactSize.execute_beyond (Nat.le_of_lt beyond)]
  · intro value stop ended
    exact CompactSize.execute_width addressable ended

/-- The only input declares the largest script that there is, and nothing follows. -/
def largestScript : Bytes :=
  [1, 0, 0, 0, 1] ++ List.replicate 32 0 ++ [0, 0, 0, 0] ++ List.replicate 9 0xff

/-- The script is refused where it starts, and so is a tag at the largest offset. -/
theorem largestScript_reads :
    largestScript.length ≤ maxDeclared ∧
      ((Transaction.decoder .unlimited).execute largestScript 0).conclude largestScript
        .trailingBytes = .ok (.error (.unexpectedEnd .unlockingScript maxDeclared 50 0)) ∧
      (⟨50, maxDeclared, false⟩ : Request).stop ≤ largestScript.length ∧
      (CompactSize.decoder.execute largestScript maxDeclared).requests =
        [⟨maxDeclared, 1, false⟩] ∧
      50 - 41 = consumed (CompactSize.decoder.execute largestScript 41).requests := by
  have addressable : largestScript.length ≤ maxDeclared := by decide
  have refused : Transaction.decodeWithin .unlimited largestScript =
      .error (.unexpectedEnd .unlockingScript maxDeclared 50 0) := rfl
  have asked : ⟨50, maxDeclared, false⟩ ∈
      ((Transaction.decoder .unlimited).execute largestScript 0).requests := by decide
  have read : (CompactSize.decoder.execute largestScript 41).outcome =
      .ok (.ok (maxDeclared, 50)) := rfl
  have whole := reads_in_bounds largestScript addressable .unlimited
  exact ⟨addressable, refused ▸ (whole 0).1.1, (whole 0).1.2.2 _ asked,
    ((whole maxDeclared).2.2.2.2.1 (by decide)).1, ((whole 41).2.2.2.2.2 _ _ read).2.1⟩

end CoinSpend
