/-
This file defines transactions, their inputs and their outputs.
-/

import CoinSpend.Fault

namespace CoinSpend

/-- An input names the output that it spends and unlocks it. -/
structure Input where
  /-- The hash is in display order; the wire carries it reversed. -/
  previousHash : Octets 32
  outputIndex : UInt32
  unlockingScript : Bytes
  sequence : UInt32
  /-- Nothing addresses an input by its label. -/
  id : Nat
deriving DecidableEq

/-- An output locks an amount by a script. -/
structure Output where
  amount : UInt64
  lockingScript : Bytes
deriving DecidableEq

structure Transaction where
  version : UInt32
  inputs : List Input
  outputs : List Output
  locktime : UInt32
deriving DecidableEq

def Input.withId (input : Input) (id : Nat) : Input := { input with id := id }

def Input.withScript (input : Input) (script : Bytes) : Input :=
  { input with unlockingScript := script }

/-- This function labels every input with its position. -/
def labelled (inputs : List Input) : List Input :=
  inputs.mapIdx fun position input => input.withId position

/-- A transaction needs an output; its inputs are labelled afresh. -/
def Transaction.ofParts (version : UInt32) (inputs : List Input) (outputs : List Output)
    (locktime : UInt32) : Except Fault Transaction :=
  if outputs.isEmpty then .error .noOutputs
  else .ok ⟨version, labelled inputs, outputs, locktime⟩

/-- This function finds an input by its position. -/
def Transaction.input (transaction : Transaction) (position : Nat) : Except Fault Input :=
  match transaction.inputs[position]? with
  | some input => .ok input
  | none => .error (.noInput position transaction.inputs.length)

end CoinSpend
