/-
This file states that other scripts and all labels have no influence on how an input is signed and
judged.
-/

import CoinSpend.Proofs.Transaction.Commitment
import CoinSpend.Proofs.Verification.Source
import CoinSpend.Transaction.Summary

namespace CoinSpend

/-- This is the script of an input, where there is one. -/
def Transaction.scriptAt? (transaction : Transaction) (position : Nat) : Option Bytes :=
  transaction.inputs[position]?.map Input.unlockingScript

theorem Transaction.unlockingScript_eq {left right : Transaction} {position : Nat}
    {first second : Input} (scripts : left.scriptAt? position = right.scriptAt? position)
    (atFirst : left.inputs[position]? = some first)
    (atSecond : right.inputs[position]? = some second) :
    first.unlockingScript = second.unlockingScript := by
  rw [scriptAt?, scriptAt?, atFirst, atSecond] at scripts
  exact Option.some.inj scripts

/-- A position lies outside both transactions or names two inputs of the same content. -/
theorem Transaction.SameUnsigned.input_cases {left right : Transaction}
    (same : left.SameUnsigned right) (position : Nat) :
    (left.inputs.length ≤ position ∧ right.inputs.length ≤ position) ∨
      ∃ first second, left.inputs[position]? = some first ∧
        right.inputs[position]? = some second ∧ first.previousHash = second.previousHash ∧
          first.outputIndex = second.outputIndex ∧ first.sequence = second.sequence := by
  have count := same.inputCount
  by_cases inside : position < left.inputs.length
  · have atFirst := List.getElem?_eq_getElem inside
    have atSecond := List.getElem?_eq_getElem (show position < right.inputs.length by omega)
    exact .inr ⟨_, _, atFirst, atSecond, same.inputs position _ _ atFirst atSecond⟩
  · exact .inl (by omega)

/-- The signed form shows nothing but the content to be signed, the position and the script code. -/
theorem Transaction.SameUnsigned.signedForm_eq {left right : Transaction}
    (same : left.SameUnsigned right) (position : Nat) (code : Bytes) :
    (left.signedForm position code).relabelled = (right.signedForm position code).relabelled := by
  have inputs : (left.signedForm position code).relabelled.inputs =
      (right.signedForm position code).relabelled.inputs := by
    apply List.ext_getElem?
    intro index
    rw [relabelled_signedForm_input, relabelled_signedForm_input]
    rcases same.input_cases index with ⟨leftOutside, rightOutside⟩ |
      ⟨first, second, atFirst, atSecond, hash, outputIndex, sequence⟩
    · rw [List.getElem?_eq_none leftOutside, List.getElem?_eq_none rightOutside]
    · rw [atFirst, atSecond]
      simp only [Option.map_some, Input.withScript, Input.withId, hash, outputIndex, sequence]
  rw [relabelled, relabelled] at inputs ⊢
  simp only [signedForm, same.version, same.outputs, same.locktime] at inputs ⊢
  rw [inputs]

theorem Transaction.SameUnsigned.preimage_eq {left right : Transaction}
    (same : left.SameUnsigned right) (position : Nat) (code : Bytes) :
    left.preimage position code = right.preimage position code := by
  have count := same.inputCount
  by_cases inside : position < left.inputs.length
  · rw [Transaction.preimage_eq inside, Transaction.preimage_eq (count ▸ inside),
      ← encode_relabelled, same.signedForm_eq, encode_relabelled]
  · rw [preimage, preimage, if_neg inside, if_neg (count ▸ inside), count]

/-- Two transactions agree on an input when they have the same content to be signed and the same
script at its position. -/
theorem Transaction.SameUnsigned.preimageFrom_eq {left right : Transaction} {position : Nat}
    (same : left.SameUnsigned right)
    (scripts : left.scriptAt? position = right.scriptAt? position) (source : ScriptCodeSource) :
    left.preimageFrom position source = right.preimageFrom position source := by
  rw [preimageFrom, preimageFrom]
  rcases same.input_cases position with ⟨leftOutside, rightOutside⟩ |
    ⟨first, second, atFirst, atSecond, -⟩
  · rw [input_outside leftOutside, input_outside rightOutside, same.inputCount]
    rfl
  · have code : source.scriptCode position first = source.scriptCode position second :=
      ScriptCodeSource.scriptCode_congr (unlockingScript_eq scripts atFirst atSecond)
    rw [input_eq_ok.mpr atFirst, input_eq_ok.mpr atSecond]
    simp only [bind, Except.bind, code, same.preimage_eq]

theorem Transaction.SameUnsigned.verdict_eq {left right : Transaction} {position : Nat}
    (same : left.SameUnsigned right)
    (scripts : left.scriptAt? position = right.scriptAt? position) (source : ScriptCodeSource) :
    left.verdict position source = right.verdict position source := by
  have accepts : left.accepts position source = right.accepts position source := by
    rcases same.input_cases position with ⟨leftOutside, rightOutside⟩ |
      ⟨first, second, atFirst, atSecond, -⟩
    · rw [accepts_outside leftOutside, accepts_outside rightOutside, same.inputCount]
    · rw [Transaction.accepts, Transaction.accepts, sighash, sighash,
        same.preimageFrom_eq scripts source, input_eq_ok.mpr atFirst, input_eq_ok.mpr atSecond]
      simp only [bind, Except.bind, unlockingScript_eq scripts atFirst atSecond]
  rw [verdict, verdict, accepts]

/-- Transactions with the same scripts differ in nothing but their labels. -/
theorem Transaction.SameUnsigned.relabelled_eq {left right : Transaction}
    (same : left.SameUnsigned right)
    (scripts : ∀ position, left.scriptAt? position = right.scriptAt? position) :
    left.relabelled = right.relabelled := by
  have inputs : labelled left.inputs = labelled right.inputs := by
    apply List.ext_getElem?
    intro index
    rw [labelled, labelled, List.getElem?_mapIdx, List.getElem?_mapIdx]
    rcases same.input_cases index with ⟨leftOutside, rightOutside⟩ |
      ⟨first, second, atFirst, atSecond, hash, outputIndex, sequence⟩
    · rw [List.getElem?_eq_none leftOutside, List.getElem?_eq_none rightOutside]
    · have script := unlockingScript_eq (scripts index) atFirst atSecond
      rw [atFirst, atSecond]
      simp only [Option.map_some, Input.withId, hash, outputIndex, sequence, script]
  rw [relabelled, relabelled, inputs, same.version, same.outputs, same.locktime]

/-- An observer is blind when it does not look at labels. -/
structure Observer.Blind {A : Type} (observer : Observer A) : Prop where
  verified : ∀ (state : A) (position : Nat) (input : Input) (id : Nat),
    observer.verified state position (input.withId id) = observer.verified state position input
  rejected : ∀ (state : A) (position : Nat) (input : Input) (id : Nat) (failure : Failure),
    observer.rejected state position (input.withId id) failure =
      observer.rejected state position input failure

theorem Observer.recorder_blind : Observer.recorder.Blind :=
  ⟨fun _ _ _ _ => rfl, fun _ _ _ _ _ => rfl⟩

theorem Observer.logger_blind : Observer.logger.Blind where
  verified _ _ _ _ := rfl
  rejected _ _ _ _ failure := by
    cases failure <;> rfl

/-- A blind observer follows itself from one set of labels to another. -/
theorem Observer.Blind.follows {A : Type} {observer : Observer A} (blind : observer.Blind)
    {left right : Transaction} (labels : left.relabelled = right.relabelled) :
    observer.Follows observer left.inputs right.inputs Eq := by
  have entries {position : Nat} {first second : Input}
      (atFirst : left.inputs[position]? = some first)
      (atSecond : right.inputs[position]? = some second) :
      first.withId position = second.withId position := by
    have entry := congrArg (fun transaction => transaction.inputs[position]?) labels
    simpa [Transaction.relabelled, labelled, atFirst, atSecond] using entry
  constructor
  · intro position first second state shadow atFirst atSecond same
    rw [same, ← blind.verified shadow position first position, entries atFirst atSecond,
      blind.verified]
  · intro position first second state shadow failure atFirst atSecond same
    rw [same, ← blind.rejected shadow position first position, entries atFirst atSecond,
      blind.rejected]

theorem Transaction.SameUnsigned.verify_eq {left right : Transaction}
    (same : left.SameUnsigned right)
    (scripts : ∀ position, left.scriptAt? position = right.scriptAt? position)
    (source : ScriptCodeSource) {A : Type} {observer : Observer A} (blind : observer.Blind)
    (state : A) : left.verify source observer state = right.verify source observer state := by
  have parts := verify_related same.inputCount
    (fun position => same.verdict_eq (scripts position) source)
    (blind.follows (same.relabelled_eq scripts)) (Eq.refl state)
  exact Prod.ext parts.1 parts.2

/-- An input is signed and judged by its own script and the content to be signed. Other scripts have
no say in it, and labels have no say in anything. -/
theorem Transaction.verdict_isolated {left right : Transaction} (same : left.SameUnsigned right) :
    (∀ position, left.scriptAt? position = right.scriptAt? position →
      (∀ code, left.preimage position code = right.preimage position code) ∧
      left.signingPreimage position = right.signingPreimage position ∧
      left.encodeFor (some position) = right.encodeFor (some position) ∧
      ∀ source, left.preimageFrom position source = right.preimageFrom position source ∧
        left.sighash position source = right.sighash position source ∧
        left.verdict position source = right.verdict position source) ∧
    ((∀ position, left.scriptAt? position = right.scriptAt? position) →
      (∀ source events,
        left.verify source .recorder events = right.verify source .recorder events) ∧
      left.verifyLogged = right.verifyLogged ∧ left.encode = right.encode ∧
      left.encodedLength = right.encodedLength ∧ left.txid = right.txid ∧
      left.inspect = right.inspect ∧ left.publicKeys = right.publicKeys ∧
      left.keyHashes = right.keyHashes) := by
  refine ⟨fun position scripts => ?_, fun scripts => ?_⟩
  · have signing := same.preimageFrom_eq scripts
    refine ⟨same.preimage_eq position, signing .derived, signing .derived, fun source => ?_⟩
    refine ⟨signing source, ?_, same.verdict_eq scripts source⟩
    rw [sighash, sighash, signing source]
  · have labels := same.relabelled_eq scripts
    have encoded : left.encode = right.encode := by
      rw [← left.encode_relabelled, labels, encode_relabelled]
    have keys : left.publicKeys = right.publicKeys := by
      rw [← left.publicKeys_relabelled, labels, publicKeys_relabelled]
    refine ⟨fun source => same.verify_eq scripts source Observer.recorder_blind,
      same.verify_eq scripts .derived Observer.logger_blind [], encoded, ?_, ?_, ?_, keys, ?_⟩
    · rw [← left.encodedLength_relabelled, labels, encodedLength_relabelled]
    · rw [txid, txid, encoded]
    · rw [← left.inspect_relabelled, labels, inspect_relabelled]
    · rw [keyHashes, keyHashes, keys]

/-- Both labels and the second script differ from those of the other spend. -/
def editedSpend : Transaction :=
  { halfSignedSpend with
    inputs := [⟨Octets.bigEndian 32 5, 0, signedScript.encode, 0xffffffff, 7⟩,
      ⟨Octets.bigEndian 32 6, 1, [0x51, 0xac], 0, 7⟩] }

theorem editedSpend_sameUnsigned : halfSignedSpend.SameUnsigned editedSpend where
  version := rfl
  locktime := rfl
  outputs := rfl
  inputCount := rfl
  inputs := by
    intro index first second atFirst atSecond
    match index with
    | 0 | 1 =>
        rw [← Option.some.inj atFirst, ← Option.some.inj atSecond]
        exact ⟨rfl, rfl, rfl⟩
    | index + 2 => cases atFirst

/-- The signature of the first input survives the edit of the second script and of the labels. -/
theorem editedSpend_verdict :
    halfSignedSpend.SameUnsigned editedSpend ∧
      halfSignedSpend.scriptAt? 0 = editedSpend.scriptAt? 0 ∧
        editedSpend.verdict 0 .derived = .ok () := by
  refine ⟨editedSpend_sameUnsigned, rfl, ?_⟩
  have isolated := (Transaction.verdict_isolated editedSpend_sameUnsigned).1 0 rfl
  rw [← (isolated.2.2.2 .derived).2.2]
  decide +kernel

end CoinSpend
