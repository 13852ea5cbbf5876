/-
This file judges the inputs of a transaction and reports every judgement to an observer, which can
record them as a list of events.
-/

import CoinSpend.ScriptCode

namespace CoinSpend

/-- A signature can be well formed and wrong, or the input can make no sense at all. -/
inductive Failure where
  | badSignature
  | malformed (fault : Fault)
deriving DecidableEq

def Failure.display : Failure → String
  | .badSignature => "signature does not verify"
  | .malformed fault => "malformed input: " ++ fault.display

/-- A rejection names the position of the first input that fails. -/
structure Rejection where
  position : Nat
  failure : Failure
deriving DecidableEq

def Rejection.display (rejection : Rejection) : String :=
  s!"input {rejection.position}: " ++ rejection.failure.display

/-- The type comes before the key, and the key comes before the signature. -/
def UnlockingScript.accepts (script : UnlockingScript) (digest : Octets 32) :
    Except Fault Bool := do
  if script.sighashType.toNat ≠ sighashAll then .error (.sighashType script.sighashType)
  let key ← script.key.expand.mapError .credential
  let signature ← script.normalizedSignature
  (Secp256k1.verify key signature digest).mapError .credential

/-- The digest is computed before the script is read for the signature. -/
def Transaction.accepts (transaction : Transaction) (position : Nat)
    (source : ScriptCodeSource) : Except Fault Bool := do
  let input ← transaction.input position
  let digest ← transaction.sighash position source
  let script ← UnlockingScript.decode input.unlockingScript
  script.accepts digest

def Transaction.verdict (transaction : Transaction) (position : Nat)
    (source : ScriptCodeSource) : Except Failure Unit :=
  match transaction.accepts position source with
  | .ok true => .ok ()
  | .ok false => .error .badSignature
  | .error fault => .error (.malformed fault)

/-- An observer updates its state for every judged input. -/
structure Observer (State : Type) where
  verified : State → Nat → Input → State
  rejected : State → Nat → Input → Failure → State

def Observer.silent : Observer Unit where
  verified _ _ _ := ()
  rejected _ _ _ _ := ()

inductive Event where
  | verified (position : Nat)
  | rejected (position : Nat) (failure : Failure)
deriving DecidableEq

/-- The recorder appends an event for every judged input. -/
def Observer.recorder : Observer (List Event) where
  verified events position _ := events ++ [.verified position]
  rejected events position _ failure := events ++ [.rejected position failure]

/-- The inputs are judged in order up to the first failure. -/
def Transaction.verifyFrom {State : Type} (transaction : Transaction)
    (source : ScriptCodeSource) (observer : Observer State) (position : Nat) :
    List Input → State → Except Rejection Nat × State
  | [], state => (.ok position, state)
  | input :: rest, state =>
      match transaction.verdict position source with
      | .ok () =>
          transaction.verifyFrom source observer (position + 1) rest
            (observer.verified state position input)
      | .error failure =>
          (.error ⟨position, failure⟩, observer.rejected state position input failure)

/-- The result is the number of inputs, or the first rejection. -/
def Transaction.verify {State : Type} (transaction : Transaction) (source : ScriptCodeSource)
    (observer : Observer State) (state : State) : Except Rejection Nat × State :=
  transaction.verifyFrom source observer 0 transaction.inputs state

end CoinSpend
