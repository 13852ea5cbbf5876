/-
This file logs a verification.
-/

import CoinSpend.Verification

namespace CoinSpend

inductive LogLevel where
  | debug
  | info
deriving DecidableEq

def LogLevel.label : LogLevel → String
  | .debug => "DEBUG"
  | .info => "INFO"

/-- A log entry has a position and named texts. -/
structure LogEntry where
  level : LogLevel
  position : Nat
  texts : List (String × String)
deriving DecidableEq

def LogEntry.verified (position : Nat) (input : Input) : LogEntry :=
  ⟨.debug, position,
    [("script_sig", Hex.encode input.unlockingScript), ("message", "signature verified")]⟩

def LogEntry.rejected (position : Nat) (input : Input) : Failure → LogEntry
  | .badSignature =>
      ⟨.info, position,
        [("script_sig", Hex.encode input.unlockingScript), ("message", "bad signature")]⟩
  | .malformed fault =>
      ⟨.info, position,
        [("code", fault.code.label), ("reason", fault.message), ("message", "malformed input")]⟩

/-- The logger appends an entry for every judged input. -/
def Observer.logger : Observer (List LogEntry) where
  verified entries position input := entries ++ [.verified position input]
  rejected entries position input failure := entries ++ [.rejected position input failure]

/-- The plain verification derives every script code and logs. -/
def Transaction.verifyLogged (transaction : Transaction) :
    Except Rejection Nat × List LogEntry :=
  transaction.verify .derived .logger []

/-- A malformed input counts as a failed signature. -/
def Transaction.isVerified (transaction : Transaction) : Bool :=
  transaction.verifyLogged.1.isOk

end CoinSpend
