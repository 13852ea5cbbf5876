/-
This file runs a session: one transaction that is edited and verified step by step, and the
events of all verifications.
-/

import CoinSpend.Transaction.Edit
import CoinSpend.Verification

namespace CoinSpend

/-- The recorder keeps its events over the whole session. -/
structure Session where
  transaction : Transaction
  events : List Event

def Session.start (transaction : Transaction) : Session := ⟨transaction, []⟩

/-- A step edits, replaces, shows or verifies the transaction. -/
inductive Session.Step where
  | edit (edit : Transaction.Edit)
  | load (draft : Draft)
  | renew
  | reread
  | show
  | preimage (position : Nat)
  | verify (source : ScriptCodeSource)

/-- Every step is answered. -/
inductive Session.Reply where
  | done
  | noSuchItem
  | fault (fault : Fault)
  | transaction (transaction : Transaction)
  | preimage (bytes : Bytes)
  | verified (result : Except Rejection Nat) (events : List Event)

/-- A fault leaves the session unchanged. -/
def Session.replace (session : Session) : Except Fault Transaction → Session × Reply
  | .ok transaction => ({ session with transaction := transaction }, .done)
  | .error fault => (session, .fault fault)

def Session.perform (session : Session) : Step → Session × Reply
  | .edit edit =>
      match session.transaction.edit? edit with
      | some transaction => ({ session with transaction := transaction }, .done)
      | none => (session, .noSuchItem)
  | .load draft => session.replace draft.make
  | .renew => session.replace session.transaction.renewed
  | .reread => session.replace session.transaction.reread
  | .show => (session, .transaction session.transaction)
  | .preimage position =>
      match session.transaction.signingPreimage position with
      | .ok bytes => (session, .preimage bytes)
      | .error fault => (session, .fault fault)
  | .verify source =>
      let (result, events) := session.transaction.verify source .recorder session.events
      ({ session with events := events }, .verified result events)

end CoinSpend
