/-
This file states which script code a source gives an input and which bytes to sign it leads to.
-/

import CoinSpend.Proofs.Outcome
import CoinSpend.ScriptCode

namespace CoinSpend

theorem Transaction.input_eq_ok {transaction : Transaction} {position : Nat} {input : Input} :
    transaction.input position = .ok input ↔ transaction.inputs[position]? = some input := by
  rw [Transaction.input]
  cases transaction.inputs[position]? with
  | none => simp
  | some found => simp

theorem Transaction.input_outside {transaction : Transaction} {position : Nat}
    (outside : transaction.inputs.length ≤ position) :
    transaction.input position = .error (.noInput position transaction.inputs.length) := by
  rw [Transaction.input, List.getElem?_eq_none outside]

/-- Only a list of known scripts can be too short. -/
def ScriptCodeSource.Lacks (position : Nat) : ScriptCodeSource → Prop
  | .derived => False
  | .known scripts => scripts.length ≤ position

/-- This is the script code of an input whose key is known. -/
def ScriptCodeSource.codeFor? (position : Nat) (key : PublicKey) :
    ScriptCodeSource → Option Bytes
  | .derived => some (payToKeyHash key.hash)
  | .known scripts => scripts[position]?

/-- A source that is long enough has a script code for every key. -/
theorem ScriptCodeSource.exists_codeFor {position : Nat} {source : ScriptCodeSource}
    (supplied : ¬ source.Lacks position) (key : PublicKey) :
    ∃ code, source.codeFor? position key = some code := by
  cases source with
  | derived => exact ⟨payToKeyHash key.hash, rfl⟩
  | known scripts =>
      have inside : position < scripts.length := Nat.lt_of_not_le supplied
      exact ⟨scripts[position], List.getElem?_eq_getElem inside⟩

/-- The script code of an input depends on its script alone. -/
theorem ScriptCodeSource.scriptCode_congr {position : Nat} {source : ScriptCodeSource}
    {first second : Input} (same : first.unlockingScript = second.unlockingScript) :
    source.scriptCode position first = source.scriptCode position second := by
  cases source with
  | derived => rw [scriptCode, scriptCode, Input.publicKey, Input.publicKey, same]
  | known scripts => rfl

/-- The derived bytes carry the hash of the key that the input pushes. -/
theorem Transaction.signingPreimage_eq {transaction : Transaction} {position : Nat}
    {input : Input} {script : UnlockingScript}
    (found : transaction.inputs[position]? = some input)
    (decoded : UnlockingScript.decode input.unlockingScript = .ok script) :
    transaction.signingPreimage position =
      transaction.preimage position (payToKeyHash script.key.hash) := by
  rw [signingPreimage, preimageFrom, input_eq_ok.mpr found]
  simp only [bind, Except.bind, ScriptCodeSource.scriptCode, Input.publicKey, decoded, Except.map]

theorem Transaction.preimageFrom_known {transaction : Transaction} {position : Nat}
    {input : Input} {scripts : List Bytes} {script : Bytes}
    (found : transaction.inputs[position]? = some input)
    (known : scripts[position]? = some script) :
    transaction.preimageFrom position (.known scripts) =
      transaction.preimage position script := by
  rw [preimageFrom, input_eq_ok.mpr found]
  simp only [bind, Except.bind, ScriptCodeSource.scriptCode, known]

/-- Both sources lead to a preimage with the script code that they stand for. -/
theorem Transaction.preimageFrom_eq {transaction : Transaction} {position : Nat}
    {source : ScriptCodeSource} {input : Input} {script : UnlockingScript} {code : Bytes}
    (found : transaction.inputs[position]? = some input)
    (decoded : UnlockingScript.decode input.unlockingScript = .ok script)
    (given : source.codeFor? position script.key = some code) :
    transaction.preimageFrom position source = transaction.preimage position code := by
  cases source with
  | derived =>
      have derived : payToKeyHash script.key.hash = code := Option.some.inj given
      rw [← derived]
      exact signingPreimage_eq found decoded
  | known scripts => exact preimageFrom_known found given

end CoinSpend
