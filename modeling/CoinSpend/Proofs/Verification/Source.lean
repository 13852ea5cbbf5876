/-
This file states when the known scripts lead to the same verification as the derived ones.
-/

import Mathlib.Control.Monad.Basic
import CoinSpend.Proofs.Verification.Run
import CoinSpend.Proofs.Verification.Verdict

namespace CoinSpend

/-- Known scripts fit when there is one for every input, and it pays to the key that the input
pushes; behind a script that cannot be read, any script fits. -/
structure Transaction.Fits (transaction : Transaction) (scripts : List Bytes) : Prop where
  enough : transaction.inputs.length ≤ scripts.length
  pays : ∀ (position : Nat) (input : Input) (script : UnlockingScript),
    transaction.inputs[position]? = some input →
    UnlockingScript.decode input.unlockingScript = .ok script →
    scripts[position]? = some (payToKeyHash script.key.hash)

/-- A readable input signs the same bytes under both sources. -/
theorem Transaction.reads_known {transaction : Transaction} {scripts : List Bytes}
    {position : Nat} {script : UnlockingScript} {signed : Bytes}
    (fits : transaction.Fits scripts) (reads : transaction.Reads position .derived script signed) :
    transaction.Reads position (.known scripts) script signed := by
  obtain ⟨input, found, decoded⟩ := reads.decoded
  obtain ⟨code, derived, written⟩ := reads.written
  refine ⟨reads.decoded, code, ?_, written⟩
  exact (fits.pays position input script found decoded).trans derived

theorem Transaction.verdict_known {transaction : Transaction} {scripts : List Bytes}
    (fits : transaction.Fits scripts) (position : Nat) :
    transaction.verdict position (.known scripts) = transaction.verdict position .derived := by
  have derived : ¬ ScriptCodeSource.derived.Lacks position := not_false
  by_cases inside : position < transaction.inputs.length
  · have known : ¬ (ScriptCodeSource.known scripts).Lacks position :=
      Nat.not_le_of_lt (Nat.lt_of_lt_of_le inside fits.enough)
    have found := List.getElem?_eq_getElem inside
    cases decoded : UnlockingScript.decode transaction.inputs[position].unlockingScript with
    | error fault =>
        rw [verdict, verdict, accepts_unreadable found known decoded,
          accepts_unreadable found derived decoded]
    | ok script =>
        obtain ⟨signed, reads⟩ := exists_reads found derived decoded
        rw [verdict, verdict, accepts_reads reads, accepts_reads (reads_known fits reads)]
  · have outside := Nat.le_of_not_lt inside
    rw [verdict, verdict, accepts_outside outside, accepts_outside outside]

/-- Under fitting scripts the known source and the derived one return the same result, and every
observer sees the same. -/
theorem Transaction.verify_known_eq_derived {transaction : Transaction} {scripts : List Bytes}
    (fits : transaction.Fits scripts) {State : Type} (observer : Observer State) (state : State) :
    transaction.verify (.known scripts) observer state =
      transaction.verify .derived observer state := by
  have same := verify_related rfl (verdict_known fits)
    (observer.follows_self transaction.inputs) (Eq.refl state)
  exact Prod.ext same.1 same.2

/-- The key of this script is the double of the base point. -/
def signedScript : UnlockingScript where
  der := [0x30, 0x44, 0x02, 0x20] ++
    toBigEndian 32 0x79be667ef9dcbbac55a06295ce870b07029bfcdb2dce28d959f2815b16f81798 ++
    [0x02, 0x20] ++
    toBigEndian 32 0x0d07eb53b280765e689e3e70a1fd56045bc00083cb6c3efcc7677841dbe7708a
  sighashType := 0x01
  key := .compressed false (Octets.bigEndian 32
    0xc6047f9441ed7d6d3045406e95c07cd85c778e4b8cef3ca7abac09b95c709ee5)

/-- The first input is signed by its key and the second one has an empty script. -/
def halfSignedSpend : Transaction where
  version := 1
  inputs := [⟨Octets.bigEndian 32 5, 0, signedScript.encode, 0xffffffff, 0⟩,
    ⟨Octets.bigEndian 32 6, 1, [], 0, 1⟩]
  outputs := [⟨1000, [0x51]⟩]
  locktime := 0

theorem signedScript_decode : UnlockingScript.decode signedScript.encode = .ok signedScript := by
  decide +kernel

/-- The second script cannot be read, so any script fits behind it. -/
theorem halfSignedSpend_fits :
    halfSignedSpend.Fits [payToKeyHash signedScript.key.hash, [0x6a]] where
  enough := by decide
  pays := by
    intro position input script found decoded
    match position with
    | 0 =>
        rw [← Option.some.inj found, signedScript_decode] at decoded
        rw [← Except.ok.inj decoded]
        rfl
    | 1 =>
        rw [← Option.some.inj found] at decoded
        cases decoded
    | position + 2 => cases found

/-- Both sources accept the first input, reject the second and report one fault. -/
theorem halfSignedSpend_verify :
    halfSignedSpend.Fits [payToKeyHash signedScript.key.hash, [0x6a]] ∧
      halfSignedSpend.verify (.known [payToKeyHash signedScript.key.hash, [0x6a]]) .recorder [] =
        (.error ⟨1, .malformed (.unexpectedEnd .byte 1 0 0)⟩,
          [.verified 0, .rejected 1 (.malformed (.unexpectedEnd .byte 1 0 0))]) := by
  refine ⟨halfSignedSpend_fits, ?_⟩
  rw [Transaction.verify_known_eq_derived halfSignedSpend_fits]
  decide +kernel

end CoinSpend
