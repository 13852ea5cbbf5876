/-
This file computes the encoded length of a transaction, its identifier and its summary.
-/

import CoinSpend.Digest
import CoinSpend.Transaction.Encoding

namespace CoinSpend

def Input.encodedLength (input : Input) : Nat :=
  36 + CompactSize.size input.unlockingScript.length + input.unlockingScript.length + 4

def Output.encodedLength (output : Output) : Nat :=
  8 + CompactSize.size output.lockingScript.length + output.lockingScript.length

def totalLength {A : Type} (length : A → Nat) (items : List A) : Nat :=
  items.foldl (fun total item => total + length item) 0

/-- The length is known before anything is written. -/
def Transaction.encodedLength (transaction : Transaction) : Nat :=
  4 + CompactSize.size transaction.inputs.length +
    totalLength Input.encodedLength transaction.inputs +
    CompactSize.size transaction.outputs.length +
    totalLength Output.encodedLength transaction.outputs + 4

/-- The identifier is shown in the reverse of the hashed order. -/
def Transaction.txid (transaction : Transaction) : Octets 32 :=
  (Digest.doubleSha256 transaction.encode).reverse

structure Summary where
  txid : Octets 32
  encodedLength : Nat
  inputCount : Nat
  outputCount : Nat
deriving DecidableEq

def Transaction.summary (transaction : Transaction) : Summary :=
  ⟨transaction.txid, transaction.encodedLength, transaction.inputs.length,
    transaction.outputs.length⟩

end CoinSpend
