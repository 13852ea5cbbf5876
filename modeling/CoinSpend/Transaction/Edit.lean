/-
This file makes transactions from the forms in which they are handed in, and changes their fields,
inputs and outputs.
-/

import CoinSpend.Transaction.Decoding
import CoinSpend.Transaction.Encoding

namespace CoinSpend

/-- A draft is hexadecimal text, the parts of a transaction, or a transaction left as it is. -/
inductive Draft where
  | text (digits : String)
  | parts (version : UInt32) (inputs : List Input) (outputs : List Output) (locktime : UInt32)
  | literal (transaction : Transaction)

def Draft.make : Draft → Except Fault Transaction
  | .text digits => Transaction.decodeText .unlimited digits
  | .parts version inputs outputs locktime =>
      Transaction.ofParts version inputs outputs locktime
  | .literal transaction => .ok transaction

/-- This function makes the transaction again from its parts. -/
def Transaction.renewed (transaction : Transaction) : Except Fault Transaction :=
  Transaction.ofParts transaction.version transaction.inputs transaction.outputs
    transaction.locktime

/-- This function makes the transaction again from its encoding. -/
def Transaction.reread (transaction : Transaction) : Except Fault Transaction :=
  Transaction.decode transaction.encode

/-- Labels count for the comparison. -/
def Transaction.roundTrips (transaction : Transaction) : Bool :=
  match transaction.reread with
  | .ok reread => decide (reread = transaction)
  | .error _ => false

/-- An edit addresses inputs, outputs and bytes by position. -/
inductive Transaction.Edit where
  | version (value : UInt32)
  | locktime (value : UInt32)
  | previousHash (position : Nat) (value : Octets 32)
  | outputIndex (position : Nat) (value : UInt32)
  | unlockingScript (position : Nat) (value : Bytes)
  | toggleScriptBits (position offset : Nat) (mask : UInt8)
  | sequence (position : Nat) (value : UInt32)
  | id (position : Nat) (value : Nat)
  | amount (position : Nat) (value : UInt64)
  | lockingScript (position : Nat) (value : Bytes)
  | pushInput (input : Input)
  | pushOutput (output : Output)
  | removeInput (position : Nat)
  | removeOutput (position : Nat)
  | swapInputs (first second : Nat)

def Transaction.replaceInput? (transaction : Transaction) (position : Nat)
    (change : Input → Option Input) : Option Transaction := do
  let input ← transaction.inputs[position]?
  let changed ← change input
  return { transaction with inputs := transaction.inputs.set position changed }

def Transaction.replaceOutput? (transaction : Transaction) (position : Nat)
    (change : Output → Output) : Option Transaction := do
  let output ← transaction.outputs[position]?
  return { transaction with outputs := transaction.outputs.set position (change output) }

def Input.toggleBits? (input : Input) (offset : Nat) (mask : UInt8) : Option Input := do
  let byte ← input.unlockingScript[offset]?
  return input.withScript (input.unlockingScript.set offset (byte ^^^ mask))

def removeAt? {A : Type} (items : List A) (position : Nat) : Option (List A) :=
  if position < items.length then some (items.eraseIdx position) else none

def swapAt? {A : Type} (items : List A) (first second : Nat) : Option (List A) := do
  let left ← items[first]?
  let right ← items[second]?
  return (items.set first right).set second left

/-- An edit that addresses a missing item gives nothing; labels travel with their inputs. -/
def Transaction.edit? (transaction : Transaction) : Edit → Option Transaction
  | .version value => some { transaction with version := value }
  | .locktime value => some { transaction with locktime := value }
  | .previousHash position value =>
      transaction.replaceInput? position fun input => some { input with previousHash := value }
  | .outputIndex position value =>
      transaction.replaceInput? position fun input => some { input with outputIndex := value }
  | .unlockingScript position value =>
      transaction.replaceInput? position fun input => some (input.withScript value)
  | .toggleScriptBits position offset mask =>
      transaction.replaceInput? position fun input => input.toggleBits? offset mask
  | .sequence position value =>
      transaction.replaceInput? position fun input => some { input with sequence := value }
  | .id position value =>
      transaction.replaceInput? position fun input => some (input.withId value)
  | .amount position value =>
      transaction.replaceOutput? position fun output => { output with amount := value }
  | .lockingScript position value =>
      transaction.replaceOutput? position fun output => { output with lockingScript := value }
  | .pushInput input => some { transaction with inputs := transaction.inputs ++ [input] }
  | .pushOutput output => some { transaction with outputs := transaction.outputs ++ [output] }
  | .removeInput position => do
      return { transaction with inputs := ← removeAt? transaction.inputs position }
  | .removeOutput position => do
      return { transaction with outputs := ← removeAt? transaction.outputs position }
  | .swapInputs first second => do
      return { transaction with inputs := ← swapAt? transaction.inputs first second }

end CoinSpend
