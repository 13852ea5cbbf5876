/-
This file finds the script code of an input and hashes the preimage that carries it.
-/

import CoinSpend.Transaction.Encoding
import CoinSpend.UnlockingScript

namespace CoinSpend

/-- This locking script pays to a key hash. -/
def payToKeyHash (hash : Octets 20) : Bytes :=
  [0x76, 0xa9, 0x14] ++ hash.bytes ++ [0x88, 0xac]

/-- The script code is derived from the key that the input pushes, or looked up among the
locking scripts of the spent outputs. -/
inductive ScriptCodeSource where
  | derived
  | known (scripts : List Bytes)

def ScriptCodeSource.scriptCode (position : Nat) (input : Input) :
    ScriptCodeSource → Except Fault Bytes
  | .derived => input.publicKey.map fun key => payToKeyHash key.hash
  | .known scripts =>
      match scripts[position]? with
      | some script => .ok script
      | none => .error (.noPreviousOutput position)

def Transaction.preimageFrom (transaction : Transaction) (position : Nat)
    (source : ScriptCodeSource) : Except Fault Bytes := do
  let input ← transaction.input position
  let scriptCode ← source.scriptCode position input
  transaction.preimage position scriptCode

def Transaction.signingPreimage (transaction : Transaction) (position : Nat) :
    Except Fault Bytes :=
  transaction.preimageFrom position .derived

def Transaction.sighash (transaction : Transaction) (position : Nat)
    (source : ScriptCodeSource) : Except Fault (Octets 32) :=
  (transaction.preimageFrom position source).map Digest.doubleSha256

/-- Without a position this is the full encoding, with one the bytes to sign. -/
def Transaction.encodeFor (transaction : Transaction) : Option Nat → Except Fault Bytes
  | none => .ok transaction.encode
  | some position => transaction.signingPreimage position

end CoinSpend
