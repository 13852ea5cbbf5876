/-
This file splits unlocking scripts into a signature, its type byte and a public key.
-/

import CoinSpend.Decoder
import CoinSpend.PublicKey
import CoinSpend.Transaction

namespace CoinSpend

/-- A direct push states its length in its opcode; larger opcodes are no lengths. -/
def maxDirectPush : UInt8 := 0x4b

/-- The parts of an unlocking script that spends to a key hash. -/
structure UnlockingScript where
  der : Bytes
  sighashType : UInt8
  key : PublicKey
deriving DecidableEq

def Push.decoder (push : Push) : Decoder Bytes := do
  let opcode ← Decoder.byte
  if opcode = 0 ∨ maxDirectPush < opcode then .fail (.notAPush push opcode)
  else
    .take opcode.toNat (fun _ remaining => .pushExceeds push opcode.toNat remaining)
      fun octets => .done octets.bytes

/-- The last byte of the signature push is its type; bytes of the signature come before it. -/
def splitSignature (pushed : Bytes) : Decoder (Bytes × UInt8) :=
  match pushed.getLast? with
  | none => .fail .emptySignature
  | some sighashType =>
      if pushed.dropLast.isEmpty then .fail .emptySignature
      else .done (pushed.dropLast, sighashType)

def pushesDecoder : Decoder ((Bytes × UInt8) × Bytes) := do
  let signature ← splitSignature (← Push.signature.decoder)
  let key ← Push.publicKey.decoder
  return (signature, key)

/-- The key is classified only after the two pushes have used up the script. -/
def UnlockingScript.decode (script : Bytes) : Except Fault UnlockingScript := do
  let ((der, sighashType), pushed) ← pushesDecoder.runAll .trailingAfterKey script
  let key ← (PublicKey.ofBytes pushed).mapError .credential
  return ⟨der, sighashType, key⟩

/-- A push writes its length in front of its bytes. -/
def encodePush (bytes : Bytes) : Bytes := UInt8.ofNat bytes.length :: bytes

def UnlockingScript.encode (script : UnlockingScript) : Bytes :=
  encodePush (script.der ++ [script.sighashType]) ++ encodePush script.key.bytes

def UnlockingScript.normalizedSignature (script : UnlockingScript) :
    Except Fault (Octets 64) :=
  (Secp256k1.normalizeDer script.der).mapError .credential

def Input.publicKey (input : Input) : Except Fault PublicKey :=
  (UnlockingScript.decode input.unlockingScript).map UnlockingScript.key

/-- The first input whose script is malformed decides the fault. -/
def Transaction.publicKeys (transaction : Transaction) : Except Fault (List PublicKey) :=
  transaction.inputs.mapM Input.publicKey

def Transaction.keyHashes (transaction : Transaction) : Except Fault (List (Octets 20)) :=
  transaction.publicKeys.map fun keys => keys.map PublicKey.hash

end CoinSpend
