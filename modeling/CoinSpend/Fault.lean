/-
This file lists what can be wrong with a transaction, a script, a key, a signature or the
limits, and states the code and the message of every fault.
-/

import CoinSpend.Text

namespace CoinSpend

/-- The classes of faults. -/
inductive FaultCode where
  | parse
  | inputType
  | inputIndex
  | sighashType
  | publicKeyEncoding
  | signatureEncoding
  | config
  | serialize
deriving DecidableEq

def FaultCode.label : FaultCode → String
  | .parse => "TX_ERR_PARSE"
  | .inputType => "TX_ERR_INPUT_TYPE"
  | .inputIndex => "TX_ERR_INPUT_INDEX"
  | .sighashType => "TX_ERR_SIGHASH_TYPE"
  | .publicKeyEncoding => "TX_ERR_PUBKEY_ENCODING"
  | .signatureEncoding => "TX_ERR_SIG_ENCODING"
  | .config => "TX_ERR_CONFIG"
  | .serialize => "TX_ERR_SERIALIZE"

/-- Only the parse class stands for bytes that are malformed or cut short. -/
def FaultCode.isFormat (code : FaultCode) : Bool := code = .parse

/-- The fields that can run past the end of the bytes. -/
inductive Field where
  | byte
  | word16
  | word32
  | word64
  | unlockingScript
  | lockingScript
deriving DecidableEq

def Field.label : Field → String
  | .byte => "u8"
  | .word16 => "u16le"
  | .word32 => "u32le"
  | .word64 => "u64le"
  | .unlockingScript => "script_sig"
  | .lockingScript => "script"

/-- The quantities that a limit can cap. -/
inductive Quantity where
  | inputCount
  | unlockingScriptLength
  | outputCount
  | lockingScriptLength
deriving DecidableEq

def Quantity.label : Quantity → String
  | .inputCount => "input_count"
  | .unlockingScriptLength => "script_sig_len"
  | .outputCount => "output_count"
  | .lockingScriptLength => "script_len"

/-- The two pushes of an unlocking script. -/
inductive Push where
  | signature
  | publicKey
deriving DecidableEq

def Push.label : Push → String
  | .signature => "signature"
  | .publicKey => "public key"

/-- A credential is a public key or a signature; this type lists its defects. -/
inductive CredentialFault where
  | unsupportedKey (size : Nat) (leading : Option UInt8)
  | malformedKey
  | malformedSignature
  | describedKey (reason : String)
  | describedSignature (reason : String)
deriving DecidableEq

def CredentialFault.concernsKey : CredentialFault → Bool
  | .unsupportedKey _ _ | .malformedKey | .describedKey _ => true
  | .malformedSignature | .describedSignature _ => false

def CredentialFault.code (fault : CredentialFault) : FaultCode :=
  if fault.concernsKey then .publicKeyEncoding else .signatureEncoding

def leadingText : Option UInt8 → String
  | none => "None"
  | some byte => "Some(" ++ Hex.encode [byte] ++ ")"

def CredentialFault.reason : CredentialFault → String
  | .unsupportedKey size leading =>
      s!"unsupported encoding: {size} bytes, prefix " ++ leadingText leading
  | .malformedKey => "malformed public key"
  | .malformedSignature => "malformed signature"
  | .describedKey reason => reason
  | .describedSignature reason => reason

def CredentialFault.message (fault : CredentialFault) : String :=
  (if fault.concernsKey then "invalid public key: " else "invalid signature encoding: ") ++
    fault.reason

/-- A fault carries the numbers that its message states. -/
inductive Fault where
  | unexpectedEnd (field : Field) (needed offset available : Nat)
  | nonMinimal (value offset : Nat)
  | exceedsLimit (quantity : Quantity) (value limit : Nat)
  | missingPreviousHash (position count : Nat)
  | noOutputs
  | trailingBytes (count : Nat)
  | notAPush (push : Push) (opcode : UInt8)
  | pushExceeds (push : Push) (length remaining : Nat)
  | emptySignature
  | trailingAfterKey (count : Nat)
  | credential (fault : CredentialFault)
  | notHex (defect : Hex.Defect)
  | noSigningInput (position count : Nat)
  | noInput (position count : Nat)
  | noPreviousOutput (position : Nat)
  | sighashType (value : UInt8)
  | limitsDocument
  | described (code : FaultCode) (message : String)
deriving DecidableEq

def Fault.code : Fault → FaultCode
  | .unexpectedEnd _ _ _ _ | .nonMinimal _ _ | .exceedsLimit _ _ _ | .missingPreviousHash _ _
  | .noOutputs | .trailingBytes _ | .notAPush _ _ | .pushExceeds _ _ _ | .emptySignature
  | .trailingAfterKey _ => .parse
  | .credential fault => fault.code
  | .notHex _ => .inputType
  | .noSigningInput _ _ | .noInput _ _ | .noPreviousOutput _ => .inputIndex
  | .sighashType _ => .sighashType
  | .limitsDocument => .config
  | .described code _ => code

def hexDefectText : Hex.Defect → String
  | .oddDigits => "Odd number of digits"
  | .invalidCharacter code position =>
      "Invalid character " ++ Text.quoted (Char.ofNat code.toNat) ++ s!" at position {position}"

def Fault.message : Fault → String
  | .unexpectedEnd field needed offset available =>
      "unexpected EOF (" ++ field.label ++
        s!"): need {needed} bytes at offset {offset}, have {available}"
  | .nonMinimal value offset => s!"non-minimal CompactSize {value} at offset {offset}"
  | .exceedsLimit quantity value limit => quantity.label ++ s!" {value} exceeds limit {limit}"
  | .missingPreviousHash position count =>
      s!"missing previous-transaction hash for input {position} of {count}"
  | .noOutputs => "no outputs found"
  | .trailingBytes count => s!"{count} trailing bytes after locktime"
  | .notAPush push opcode =>
      "script_sig: " ++ push.label ++ " push opcode 0x" ++ Hex.encode [opcode] ++
        " is not a direct data push"
  | .pushExceeds push length remaining =>
      "script_sig: " ++ push.label ++ s!" push of {length} bytes exceeds remaining {remaining}"
  | .emptySignature => "script_sig: signature push holds no DER bytes"
  | .trailingAfterKey count => s!"script_sig: {count} trailing bytes after public key"
  | .credential fault => fault.reason
  | .notHex defect => "raw transaction must be hex text or bytes: " ++ hexDefectText defect
  | .noSigningInput position count =>
      s!"signing input {position} not in transaction with {count} inputs"
  | .noInput position count => s!"input {position} not in transaction with {count} inputs"
  | .noPreviousOutput position => s!"no previous output script for input {position}"
  | .sighashType value => "sighash type 0x" ++ Hex.encode [value] ++ " is not SIGHASH_ALL"
  | .limitsDocument => "decode limits: "
  | .described _ message => message

/-- The display joins code and message; an empty message leaves the code alone. -/
def Fault.display (fault : Fault) : String :=
  if fault.message = "" then fault.code.label else fault.code.label ++ ": " ++ fault.message

end CoinSpend
