/-
This file states that the verdict on an input depends on its script through the meaning of its
parts, so that a signature and a key can be written in other ways.
-/

import CoinSpend.Proofs.Secp256k1.Point
import CoinSpend.Proofs.Secp256k1.Signature
import CoinSpend.Proofs.UnlockingScript
import CoinSpend.Proofs.Verification.Isolation
import CoinSpend.Transaction.Edit

namespace CoinSpend

open Secp256k1

/-- Two scripts agree when they have the same type and the verifier gets the same from their keys
and from their signatures, be it a value or a fault. -/
structure UnlockingScript.Agrees (left right : UnlockingScript) : Prop where
  sighashType : left.sighashType = right.sighashType
  key : left.key.expand = right.key.expand
  signature : left.normalizedSignature = right.normalizedSignature

theorem UnlockingScript.Agrees.accepts_eq {left right : UnlockingScript}
    (agrees : left.Agrees right) (digest : Octets 32) :
    left.accepts digest = right.accepts digest := by
  rw [accepts, accepts, agrees.sighashType, agrees.key, agrees.signature]

/-- The two forms of a signature agree under keys that expand to the same octets. -/
theorem UnlockingScript.agrees_of_negated {left right : UnlockingScript} {r s : Nat}
    (belowR : r < groupOrder) (positive : 1 ≤ s) (belowS : s < groupOrder)
    (leftDer : left.der = Signature.encodeDer ⟨r, s⟩)
    (rightDer : right.der = Signature.encodeDer ⟨r, groupOrder - s⟩)
    (types : left.sighashType = right.sighashType)
    (keys : left.key.expand = right.key.expand) : left.Agrees right where
  sighashType := types
  key := keys
  signature := by
    have negated : Signature.InRange ⟨r, groupOrder - s⟩ := by
      refine ⟨belowR, ?_⟩
      change groupOrder - s < groupOrder
      omega
    rw [normalizedSignature, normalizedSignature, leftDer, rightDer,
      normalizeDer_encodeDer ⟨belowR, belowS⟩, normalizeDer_encodeDer negated,
      Signature.normalize_negated r belowS]

/-- The two encodings of a point agree under signatures that are read alike. -/
theorem UnlockingScript.agrees_of_compressed {left right : UnlockingScript} {point : Point}
    (onCurve : point.OnCurve) (leftKey : left.key = .compressedOf point)
    (rightKey : right.key = .uncompressedOf point)
    (types : left.sighashType = right.sighashType)
    (signatures : left.normalizedSignature = right.normalizedSignature) :
    left.Agrees right where
  sighashType := types
  key := by rw [leftKey, rightKey, PublicKey.expand_compressedOf onCurve]
  signature := signatures

/-- Transactions with the same content to be signed are judged alike at a position where their
scripts agree and ask for the same script code. -/
theorem Transaction.SameUnsigned.verdict_of_agrees {left right : Transaction} {position : Nat}
    {source : ScriptCodeSource} {leftInput rightInput : Input} {first second : UnlockingScript}
    (same : left.SameUnsigned right) (atLeft : left.inputs[position]? = some leftInput)
    (atRight : right.inputs[position]? = some rightInput)
    (leftDecoded : UnlockingScript.decode leftInput.unlockingScript = .ok first)
    (rightDecoded : UnlockingScript.decode rightInput.unlockingScript = .ok second)
    (agrees : first.Agrees second)
    (codes : source.codeFor? position first.key = source.codeFor? position second.key) :
    left.verdict position source = right.verdict position source := by
  have accepts : left.accepts position source = right.accepts position source := by
    by_cases lacking : source.Lacks position
    · rw [accepts_lacking (List.getElem?_eq_some_iff.mp atLeft).1 lacking,
        accepts_lacking (List.getElem?_eq_some_iff.mp atRight).1 lacking]
    · obtain ⟨signed, leftReads⟩ := exists_reads atLeft lacking leftDecoded
      have rightReads : right.Reads position source second signed := by
        obtain ⟨code, given, written⟩ := leftReads.written
        rw [codes] at given
        rw [same.preimage_eq] at written
        exact ⟨⟨rightInput, atRight, rightDecoded⟩, code, given, written⟩
      rw [accepts_reads leftReads, accepts_reads rightReads, agrees.accepts_eq]
  rw [verdict, verdict, accepts]

/-- This transaction has another script at one position. -/
def Transaction.withScriptAt (transaction : Transaction) (position : Nat) (script : Bytes) :
    Transaction :=
  { transaction with
    inputs := transaction.inputs.modify position fun input => input.withScript script }

theorem Transaction.withScriptAt_input {transaction : Transaction} {position : Nat}
    {input : Input} (found : transaction.inputs[position]? = some input) (script : Bytes) :
    (transaction.withScriptAt position script).inputs[position]? =
      some (input.withScript script) := by
  rw [withScriptAt, List.getElem?_modify_eq, found]
  rfl

theorem Transaction.edit?_unlockingScript {transaction : Transaction} {position : Nat}
    (inside : position < transaction.inputs.length) (script : Bytes) :
    transaction.edit? (.unlockingScript position script) =
      some (transaction.withScriptAt position script) := by
  have found := List.getElem?_eq_getElem inside
  rw [withScriptAt, List.modify_eq_set_getElem?, found]
  simp only [edit?, replaceInput?, found, bind, Option.bind, pure]
  rfl

theorem Transaction.withScriptAt_sameUnsigned (transaction : Transaction) (position : Nat)
    (first second : Bytes) :
    (transaction.withScriptAt position first).SameUnsigned
      (transaction.withScriptAt position second) where
  version := rfl
  locktime := rfl
  outputs := rfl
  inputCount := by
    rw [withScriptAt, withScriptAt, List.length_modify, List.length_modify]
  inputs := by
    intro index left right atLeft atRight
    rw [withScriptAt, List.getElem?_modify] at atLeft atRight
    cases found : transaction.inputs[index]? with
    | none =>
        rw [found] at atLeft
        cases atLeft
    | some input =>
        rw [found] at atLeft atRight
        rw [← Option.some.inj atLeft, ← Option.some.inj atRight]
        by_cases edited : position = index
        · simp only [edited, if_true, Input.withScript, and_self]
        · simp only [edited, if_false, and_self]

/-- Two scripts are interchangeable at a position when they lead to the same verdict under all known
scripts, and under the derived one when they push the same bytes as their keys. -/
structure Transaction.Interchangeable (transaction : Transaction) (position : Nat)
    (first second : Bytes) : Prop where
  known : ∀ scripts : List Bytes,
    (transaction.withScriptAt position first).verdict position (.known scripts) =
      (transaction.withScriptAt position second).verdict position (.known scripts)
  derived : ∀ left right, UnlockingScript.decode first = .ok left →
    UnlockingScript.decode second = .ok right → left.key.bytes = right.key.bytes →
      (transaction.withScriptAt position first).verdict position .derived =
        (transaction.withScriptAt position second).verdict position .derived

theorem Transaction.interchangeable_of_agrees {transaction : Transaction} {position : Nat}
    {first second : Bytes} {left right : UnlockingScript}
    (inside : position < transaction.inputs.length)
    (leftDecoded : UnlockingScript.decode first = .ok left)
    (rightDecoded : UnlockingScript.decode second = .ok right) (agrees : left.Agrees right) :
    transaction.Interchangeable position first second := by
  have found := List.getElem?_eq_getElem inside
  have alike {source : ScriptCodeSource}
      (codes : source.codeFor? position left.key = source.codeFor? position right.key) :
      (transaction.withScriptAt position first).verdict position source =
        (transaction.withScriptAt position second).verdict position source :=
    (transaction.withScriptAt_sameUnsigned position first second).verdict_of_agrees
      (withScriptAt_input found first) (withScriptAt_input found second) leftDecoded rightDecoded
      agrees codes
  constructor
  · intro scripts
    exact alike rfl
  · intro leftParts rightParts leftRead rightRead keys
    rw [leftDecoded, Except.ok.injEq] at leftRead
    rw [rightDecoded, Except.ok.injEq] at rightRead
    rw [← leftRead, ← rightRead] at keys
    apply alike
    rw [ScriptCodeSource.codeFor?, ScriptCodeSource.codeFor?, PublicKey.hash, PublicKey.hash, keys]

/-- Scripts whose parts mean the same are interchangeable: a signature and its negated form are, and
so are the two encodings of a point. -/
theorem Transaction.interchangeable_scripts {transaction : Transaction} {position : Nat}
    (inside : position < transaction.inputs.length) :
    (∀ script, transaction.edit? (.unlockingScript position script) =
      some (transaction.withScriptAt position script)) ∧
    (∀ signature sighashType key,
      UnlockingScript.decode
          (UnlockingScript.encode ⟨Signature.encodeDer signature, sighashType, key⟩) =
        .ok ⟨signature.encodeDer, sighashType, key⟩) ∧
    ∀ first second left right, UnlockingScript.decode first = .ok left →
      UnlockingScript.decode second = .ok right →
      (left.Agrees right → transaction.Interchangeable position first second) ∧
      (∀ r s : Nat, r < groupOrder → 1 ≤ s → s < groupOrder →
        left.der = Signature.encodeDer ⟨r, s⟩ →
        right.der = Signature.encodeDer ⟨r, groupOrder - s⟩ →
        left.sighashType = right.sighashType → left.key.expand = right.key.expand →
        transaction.Interchangeable position first second) ∧
      (∀ point : Point, point.OnCurve → left.key = .compressedOf point →
        right.key = .uncompressedOf point → left.sighashType = right.sighashType →
        left.normalizedSignature = right.normalizedSignature →
        transaction.Interchangeable position first second) := by
  refine ⟨edit?_unlockingScript inside, ?_, ?_⟩
  · intro signature sighashType key
    exact UnlockingScript.decode_eq_ok.mpr ⟨signature.length_encodeDer, rfl⟩
  · intro first second left right leftDecoded rightDecoded
    have alike := interchangeable_of_agrees inside leftDecoded rightDecoded
    refine ⟨alike, ?_, ?_⟩
    · intro r s belowR positive belowS leftDer rightDer types keys
      exact alike (UnlockingScript.agrees_of_negated belowR positive belowS leftDer rightDer types
        keys)
    · intro point onCurve leftKey rightKey types signatures
      exact alike (UnlockingScript.agrees_of_compressed onCurve leftKey rightKey types signatures)

/-- The double of the base point. -/
def doubledBase : Point :=
  ⟨0xc6047f9441ed7d6d3045406e95c07cd85c778e4b8cef3ca7abac09b95c709ee5,
    0x1ae168fea63dc339a3c58419466ceaeef7f632653266d0e1236431a950cfe52a⟩

/-- This script carries the negated signature of the other one, and its key in the other
encoding. -/
def rewrittenScript : UnlockingScript where
  der := Signature.encodeDer
    ⟨0x79be667ef9dcbbac55a06295ce870b07029bfcdb2dce28d959f2815b16f81798,
      groupOrder - 0x0d07eb53b280765e689e3e70a1fd56045bc00083cb6c3efcc7677841dbe7708a⟩
  sighashType := 0x01
  key := .uncompressedOf doubledBase

/-- The rewritten script is accepted in the place of the signed one. -/
theorem halfSignedSpend_rewritten :
    0 < halfSignedSpend.inputs.length ∧
      (halfSignedSpend.withScriptAt 0 rewrittenScript.encode).verdict 0
        (.known [payToKeyHash signedScript.key.hash]) = .ok () := by
  have inside : 0 < halfSignedSpend.inputs.length := by
    decide
  have decoded : UnlockingScript.decode rewrittenScript.encode = .ok rewrittenScript :=
    UnlockingScript.decode_eq_ok.mpr ⟨Signature.length_encodeDer _, rfl⟩
  have der : signedScript.der = Signature.encodeDer
      ⟨0x79be667ef9dcbbac55a06295ce870b07029bfcdb2dce28d959f2815b16f81798,
        0x0d07eb53b280765e689e3e70a1fd56045bc00083cb6c3efcc7677841dbe7708a⟩ := by
    decide +kernel
  have onCurve : doubledBase.OnCurve := by
    decide +kernel
  have key : signedScript.key = .compressedOf doubledBase := by
    decide +kernel
  have keys : signedScript.key.expand = rewrittenScript.key.expand := by
    rw [key, PublicKey.expand_compressedOf onCurve]
    rfl
  have scripts := (Transaction.interchangeable_scripts inside).2.2 _ _ _ _ signedScript_decode
    decoded
  have negated := scripts.2.1 _ _ (by decide) (by decide) (by decide) der rfl rfl keys
  refine ⟨inside, ?_⟩
  rw [← negated.known]
  decide +kernel

end CoinSpend
