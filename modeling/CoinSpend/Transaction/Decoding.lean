/-
This file reads transactions from bytes and from hexadecimal text.
-/

import CoinSpend.CompactSize
import CoinSpend.Text
import CoinSpend.Transaction

namespace CoinSpend

/-- This function reads a count or a length and compares it with its limit. -/
def Limits.declared (limits : Limits) (quantity : Quantity) : Decoder Nat := do
  let value ← CompactSize.decoder
  limits.check quantity value
  return value

/-- A hash that is cut short is reported with the position of its input. -/
def Input.decodeHash (position count : Nat) : Decoder (Octets 32) :=
  .take 32 (fun _ _ => .missingPreviousHash position count) fun octets => .done octets.reverse

def Input.decoder (limits : Limits) (count position : Nat) : Decoder Input := do
  let previousHash ← decodeHash position count
  let outputIndex ← Decoder.word32
  let length ← limits.declared .unlockingScriptLength
  let unlockingScript ← Decoder.block .unlockingScript length
  let sequence ← Decoder.word32
  return ⟨previousHash, outputIndex, unlockingScript, sequence, position⟩

def Output.decoder (limits : Limits) : Decoder Output := do
  let amount ← Decoder.word64
  let length ← limits.declared .lockingScriptLength
  let lockingScript ← Decoder.block .lockingScript length
  return ⟨amount, lockingScript⟩

/-- A count of zero is refused before the limit is considered. -/
def Transaction.decodeOutputCount (limits : Limits) : Decoder Nat := do
  let count ← CompactSize.decoder
  if count = 0 then .fail .noOutputs
  else
    limits.check .outputCount count
    return count

def Transaction.decoder (limits : Limits) : Decoder Transaction := do
  let version ← Decoder.word32
  let inputCount ← limits.declared .inputCount
  let inputs ← Decoder.many inputCount (Input.decoder limits inputCount)
  let outputCount ← decodeOutputCount limits
  let outputs ← Decoder.many outputCount fun _ => Output.decoder limits
  let locktime ← Decoder.word32
  return ⟨version, inputs, outputs, locktime⟩

/-- The bytes hold one transaction and nothing else. -/
def Transaction.decodeWithin (limits : Limits) (bytes : Bytes) : Except Fault Transaction :=
  (decoder limits).runAll .trailingBytes bytes

def Transaction.decode (bytes : Bytes) : Except Fault Transaction :=
  decodeWithin .unlimited bytes

/-- Blanks around the hexadecimal text are ignored. -/
def Transaction.decodeText (limits : Limits) (text : String) : Except Fault Transaction :=
  match Hex.decode (Text.utf8 (Text.trim text.toList)) with
  | .error defect => .error (.notHex defect)
  | .ok bytes => decodeWithin limits bytes

end CoinSpend
