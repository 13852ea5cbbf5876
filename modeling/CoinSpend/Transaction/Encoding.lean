/-
This file writes transactions in their wire format, and the bytes that the signature of an input
commits to.
-/

import CoinSpend.CompactSize
import CoinSpend.Transaction

namespace CoinSpend

/-- A script follows its length. -/
def encodeScript (script : Bytes) : Bytes := CompactSize.encode script.length ++ script

/-- The outpoint is the reference to the spent output. -/
def Input.encodeOutpoint (input : Input) : Bytes :=
  input.previousHash.reverse.bytes ++ toLittleEndian 4 input.outputIndex.toNat

def Input.encode (input : Input) : Bytes :=
  input.encodeOutpoint ++ encodeScript input.unlockingScript ++
    toLittleEndian 4 input.sequence.toNat

def Output.encode (output : Output) : Bytes :=
  toLittleEndian 8 output.amount.toNat ++ encodeScript output.lockingScript

/-- The head holds the version and the number of inputs. -/
def Transaction.encodeHead (transaction : Transaction) : Bytes :=
  toLittleEndian 4 transaction.version.toNat ++ CompactSize.encode transaction.inputs.length

/-- The tail holds the outputs and the locktime. -/
def Transaction.encodeTail (transaction : Transaction) : Bytes :=
  CompactSize.encode transaction.outputs.length ++ transaction.outputs.flatMap Output.encode ++
    toLittleEndian 4 transaction.locktime.toNat

def Transaction.encode (transaction : Transaction) : Bytes :=
  transaction.encodeHead ++ transaction.inputs.flatMap Input.encode ++ transaction.encodeTail

/-- The only supported signature type commits to all inputs and all outputs. -/
def sighashAll : Nat := 1

/-- The signed input carries the script code; every other script is empty. -/
def signingSlot (position : Nat) (scriptCode : Bytes) (index : Nat) : Bytes :=
  if index = position then encodeScript scriptCode else [0x00]

def Input.encodeWithSlot (input : Input) (slot : Bytes) : Bytes :=
  input.encodeOutpoint ++ slot ++ toLittleEndian 4 input.sequence.toNat

/-- The preimage is the transaction with its scripts replaced, followed by the type. -/
def Transaction.preimage (transaction : Transaction) (position : Nat) (scriptCode : Bytes) :
    Except Fault Bytes :=
  if position < transaction.inputs.length then
    .ok (transaction.encodeHead ++
      (transaction.inputs.mapIdx fun index input =>
        input.encodeWithSlot (signingSlot position scriptCode index)).flatten ++
      transaction.encodeTail ++ toLittleEndian 4 sighashAll)
  else .error (.noSigningInput position transaction.inputs.length)

end CoinSpend
