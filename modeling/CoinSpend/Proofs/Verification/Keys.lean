/-
This file states that the keys of the inputs, the bytes that they sign and the verification go by
one reading of the scripts.
-/

import CoinSpend.Proofs.Secp256k1.Signature
import CoinSpend.Proofs.Transaction.Preimage
import CoinSpend.Proofs.UnlockingScript
import CoinSpend.Proofs.Verification.Source

namespace CoinSpend

def Input.script (input : Input) : Except Fault UnlockingScript :=
  UnlockingScript.decode input.unlockingScript

/-- The scripts are read in the order of the inputs. -/
def Transaction.scripts (transaction : Transaction) : Except Fault (List UnlockingScript) :=
  transaction.inputs.mapM Input.script

/-- The keys are what the scripts push. -/
theorem Transaction.publicKeys_eq (transaction : Transaction) :
    transaction.publicKeys = transaction.scripts.map (List.map UnlockingScript.key) :=
  mapM_map_result Input.script UnlockingScript.key transaction.inputs

/-- A key is hashed as it is pushed. -/
theorem Transaction.keyHashes_eq (transaction : Transaction) :
    transaction.keyHashes =
      transaction.scripts.map (List.map fun script => Digest.keyHash script.key.bytes) := by
  rw [keyHashes, publicKeys_eq]
  cases transaction.scripts with
  | error fault => rfl
  | ok scripts =>
      simp only [Except.map, List.map_map]
      rfl

theorem Transaction.keyHashes_eq_ok {transaction : Transaction} {hashes : List (Octets 20)} :
    transaction.keyHashes = .ok hashes ↔ ∃ scripts, transaction.scripts = .ok scripts ∧
      scripts.map (fun script => Digest.keyHash script.key.bytes) = hashes := by
  rw [keyHashes_eq, map_eq_ok]

/-- Without a script that cannot be read all of them are read. -/
theorem Transaction.scripts_read_or_stop (transaction : Transaction) :
    (∃ scripts, transaction.scripts = .ok scripts) ∨
      ∃ position fault, StopsAt Input.script transaction.inputs position fault := by
  cases read : transaction.scripts with
  | ok scripts => exact .inl ⟨scripts, rfl⟩
  | error fault =>
      obtain ⟨position, stops⟩ := mapM_eq_error.mp read
      exact .inr ⟨position, fault, stops⟩

/-- An input whose script is read signs bytes that carry the hash of its key. -/
theorem Transaction.signingPreimage_of_script {transaction : Transaction} {position : Nat}
    {input : Input} {script : UnlockingScript} (found : transaction.inputs[position]? = some input)
    (read : input.script = .ok script) :
    transaction.signingPreimage position =
        transaction.preimage position (payToKeyHash (Digest.keyHash script.key.bytes)) ∧
      ∃ signed, transaction.signingPreimage position = .ok signed := by
  have inside := (List.getElem?_eq_some_iff.mp found).1
  have derived := signingPreimage_eq found read
  refine ⟨derived, ?_⟩
  rw [derived, preimage, if_pos inside]
  exact ⟨_, rfl⟩

/-- All inputs sign exactly when all scripts are read. -/
theorem Transaction.scripts_read_iff {transaction : Transaction} :
    (∃ scripts, transaction.scripts = .ok scripts) ↔
      ∀ position < transaction.inputs.length,
        ∃ signed, transaction.signingPreimage position = .ok signed := by
  constructor
  · rintro ⟨scripts, read⟩ position inside
    have found := List.getElem?_eq_getElem inside
    obtain ⟨script, -, parts⟩ := (mapM_getElem? read).2 position _ found
    exact (signingPreimage_of_script found parts).2
  · intro signing
    rcases transaction.scripts_read_or_stop with read | ⟨position, fault, stops⟩
    · exact read
    · obtain ⟨input, found, refused⟩ := stops.failed
      obtain ⟨signed, signs⟩ := signing position (List.getElem?_eq_some_iff.mp found).1
      rw [signingPreimage_unreadable found refused] at signs
      cases signs

/-- The first script that cannot be read decides the fault of the keys, of their hashes and of the
bytes that its input signs. -/
theorem Transaction.keys_of_stopsAt {transaction : Transaction} {position : Nat} {fault : Fault}
    (stops : StopsAt Input.script transaction.inputs position fault) :
    transaction.publicKeys = .error fault ∧ transaction.keyHashes = .error fault ∧
      transaction.signingPreimage position = .error fault := by
  have refused : transaction.scripts = .error fault := mapM_eq_error.mpr ⟨position, stops⟩
  obtain ⟨input, found, unreadable⟩ := stops.failed
  refine ⟨?_, ?_, signingPreimage_unreadable found unreadable⟩
  · rw [publicKeys_eq, refused]
    rfl
  · rw [keyHashes_eq, refused]
    rfl

/-- The verification stops at a script that cannot be read, unless it has stopped before. -/
theorem Transaction.verify_of_stopsAt {transaction : Transaction} {position : Nat} {fault : Fault}
    (stops : StopsAt Input.script transaction.inputs position fault) {State : Type}
    (observer : Observer State) (state : State) :
    ∃ rejection, (transaction.verify .derived observer state).1 = .error rejection ∧
      rejection.position ≤ position ∧
        (rejection.position = position → rejection.failure = .malformed fault) := by
  obtain ⟨input, found, refused⟩ := stops.failed
  have inside := (List.getElem?_eq_some_iff.mp found).1
  have judged : transaction.verdict position .derived = .error (.malformed fault) :=
    verdict_of_judged (.unreadableScript found not_false refused)
  rcases transaction.accepted_or_failsFirst .derived le_rfl with
    accepted | ⟨first, failure, fails⟩
  · have verified := accepted position inside
    rw [judged] at verified
    cases verified
  · refine ⟨⟨first, failure⟩, ?_, ?_, ?_⟩
    · rw [transaction.verify_result .derived observer .recorder state []]
      exact verify_eq_error_iff.mpr fails
    · apply Nat.le_of_not_lt
      intro later
      have verified := fails.before position later
      rw [judged] at verified
      cases verified
    · intro same
      have failed := fails.failed
      rw [show first = position from same, judged] at failed
      cases failed
      rfl

/-- The hashes of the keys are found exactly when every input has bytes to sign, and then these
carry the hash of the key as its script pushes it. Otherwise the first script that cannot be read
decides one fault for keys, hashes and bytes, and the verification comes no further than its
input. -/
theorem Transaction.keys_agree (transaction : Transaction) :
    ((∃ hashes, transaction.keyHashes = .ok hashes) ↔
      ∀ position < transaction.inputs.length,
        ∃ signed, transaction.signingPreimage position = .ok signed) ∧
    (∀ hashes, transaction.keyHashes = .ok hashes →
      hashes.length = transaction.inputs.length ∧
      ∃ keys, transaction.publicKeys = .ok keys ∧ keys.length = transaction.inputs.length ∧
        ∀ position < transaction.inputs.length, ∃ input script hash,
          transaction.inputs[position]? = some input ∧
          UnlockingScript.decode input.unlockingScript = .ok script ∧
          input.unlockingScript = script.encode ∧ keys[position]? = some script.key ∧
          hash = Digest.keyHash script.key.bytes ∧ hashes[position]? = some hash ∧
          transaction.signingPreimage position =
            transaction.preimage position (payToKeyHash hash)) ∧
    ((∀ hashes, transaction.keyHashes ≠ .ok hashes) → ∃ position fault,
      StopsAt Input.script transaction.inputs position fault ∧
      transaction.publicKeys = .error fault ∧ transaction.keyHashes = .error fault ∧
      transaction.signingPreimage position = .error fault ∧
      ∀ {State : Type} (observer : Observer State) (state : State), ∃ rejection,
        (transaction.verify .derived observer state).1 = .error rejection ∧
          rejection.position ≤ position ∧
          (rejection.position = position → rejection.failure = .malformed fault)) ∧
    (∀ {State : Type} (observer : Observer State) (state : State) (count : Nat),
      (transaction.verify .derived observer state).1 = .ok count →
        ∃ keys, transaction.publicKeys = .ok keys ∧
          keys.length = transaction.inputs.length) := by
  refine ⟨?_, ?_, ?_, ?_⟩
  · rw [← scripts_read_iff]
    constructor
    · rintro ⟨hashes, collected⟩
      obtain ⟨scripts, read, -⟩ := keyHashes_eq_ok.mp collected
      exact ⟨scripts, read⟩
    · rintro ⟨scripts, read⟩
      exact ⟨_, keyHashes_eq_ok.mpr ⟨scripts, read, rfl⟩⟩
  · intro hashes collected
    obtain ⟨scripts, read, rfl⟩ := keyHashes_eq_ok.mp collected
    obtain ⟨sizes, entries⟩ := mapM_getElem? read
    rw [publicKeys_eq, read]
    refine ⟨by simpa using sizes, scripts.map UnlockingScript.key, rfl, by simpa using sizes, ?_⟩
    intro position inside
    have found := List.getElem?_eq_getElem inside
    obtain ⟨script, listed, parts⟩ := entries position _ found
    exact ⟨_, script, _, found, parts, (UnlockingScript.decode_eq_ok.mp parts).2,
      by simp [listed], rfl, by simp [listed], (signingPreimage_of_script found parts).1⟩
  · intro missing
    rcases transaction.scripts_read_or_stop with ⟨scripts, read⟩ | ⟨position, fault, stops⟩
    · exact absurd (keyHashes_eq_ok.mpr ⟨scripts, read, rfl⟩) (missing _)
    · obtain ⟨keys, hashes, bytes⟩ := keys_of_stopsAt stops
      exact ⟨position, fault, stops, keys, hashes, bytes, verify_of_stopsAt stops⟩
  · intro State observer state count verified
    rcases transaction.scripts_read_or_stop with ⟨scripts, read⟩ | ⟨position, fault, stops⟩
    · rw [publicKeys_eq, read]
      exact ⟨_, rfl, by simpa using (mapM_getElem? read).1⟩
    · obtain ⟨rejection, rejected, -⟩ := verify_of_stopsAt stops observer state
      rw [rejected] at verified
      cases verified

/-- This script signs the only input of the spend below with its key. -/
def soleScript : UnlockingScript :=
  { signedScript with
    der := Secp256k1.Signature.encodeDer
      ⟨0x79be667ef9dcbbac55a06295ce870b07029bfcdb2dce28d959f2815b16f81798,
        0x758315e8b9db8842d6b0f8b1a07a2a95f92d0c8039a8102b8b8f554c26ba018f⟩ }

def soleSpend : Transaction :=
  { halfSignedSpend with
    inputs := [⟨Octets.bigEndian 32 5, 0, soleScript.encode, 0xffffffff, 0⟩] }

theorem soleSpend_verified : (soleSpend.verify .derived .silent ()).1 = .ok 1 := by
  decide +kernel

theorem halfSignedSpend_keyHashes :
    halfSignedSpend.keyHashes = .error (.unexpectedEnd .byte 1 0 0) := by
  decide +kernel

/-- Where all inputs are accepted there is a key for each of them, and an empty script decides one
fault for the keys and the bytes to sign. -/
theorem soleSpend_keys :
    (∃ keys hashes, soleSpend.publicKeys = .ok keys ∧ keys.length = 1 ∧
        soleSpend.keyHashes = .ok hashes ∧ hashes.length = 1) ∧
      ∃ position fault, StopsAt Input.script halfSignedSpend.inputs position fault ∧
        halfSignedSpend.publicKeys = .error fault ∧
        halfSignedSpend.signingPreimage position = .error fault := by
  obtain ⟨keys, read, size⟩ := soleSpend.keys_agree.2.2.2 .silent () 1 soleSpend_verified
  have collected : soleSpend.keyHashes = .ok (keys.map PublicKey.hash) := by
    rw [Transaction.keyHashes, read]
    rfl
  have missing : ∀ hashes, halfSignedSpend.keyHashes ≠ .ok hashes := by
    intro hashes same
    rw [halfSignedSpend_keyHashes] at same
    cases same
  obtain ⟨position, fault, stops, refused, -, unsigned, -⟩ :=
    halfSignedSpend.keys_agree.2.2.1 missing
  exact ⟨⟨keys, _, read, size, collected, (soleSpend.keys_agree.2.1 _ collected).1⟩, position,
    fault, stops, refused, unsigned⟩

end CoinSpend
