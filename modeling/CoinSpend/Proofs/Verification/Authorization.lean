/-
This file states what the acceptance of an input means for the key that it pushes.
-/

import Mathlib.Control.Monad.Basic
import CoinSpend.Proofs.Outcome
import CoinSpend.Proofs.Transaction.Commitment
import CoinSpend.Proofs.Verification.Verdict

namespace CoinSpend

/-- A script signs a digest with a signature of the supported type that its own key verifies. -/
structure UnlockingScript.Signs (script : UnlockingScript) (digest : Octets 32) : Prop where
  supported : script.sighashType.toNat = sighashAll
  signed : ∃ key signature, script.key.expand = .ok key ∧
    script.normalizedSignature = .ok signature ∧
      Secp256k1.verify key signature digest = .ok true

theorem UnlockingScript.accepts_eq_true {script : UnlockingScript} {digest : Octets 32} :
    script.accepts digest = .ok true ↔ script.Signs digest := by
  by_cases supported : script.sighashType.toNat = sighashAll
  · rw [accepts_supported (supported_iff.mp supported), bind_eq_ok]
    apply Iff.intro
    · intro accepted
      obtain ⟨key, expanded, rest⟩ := accepted
      obtain ⟨signature, normalized, verified⟩ := bind_eq_ok.mp rest
      exact ⟨supported, key, signature, mapError_eq_ok.mp expanded, normalized,
        mapError_eq_ok.mp verified⟩
    · intro signs
      obtain ⟨key, signature, expanded, normalized, verified⟩ := signs.signed
      exact ⟨key, mapError_eq_ok.mpr expanded,
        bind_eq_ok.mpr ⟨signature, normalized, mapError_eq_ok.mpr verified⟩⟩
  · rw [accepts_unsupported (fun same => supported (supported_iff.mpr same))]
    apply Iff.intro
    · intro accepted
      cases accepted
    · intro signs
      exact absurd signs.supported supported

/-- A verdict is good exactly when the script signs the bytes that the source leads to. -/
theorem Transaction.verdict_eq_ok {transaction : Transaction} {position : Nat}
    {source : ScriptCodeSource} :
    transaction.verdict position source = .ok () ↔
      ∃ input script bytes, transaction.input position = .ok input ∧
        transaction.preimageFrom position source = .ok bytes ∧
        UnlockingScript.decode input.unlockingScript = .ok script ∧
        script.Signs (Digest.doubleSha256 bytes) := by
  have verdict : transaction.verdict position source = .ok () ↔
      transaction.accepts position source = .ok true := by
    rw [Transaction.verdict]
    cases transaction.accepts position source with
    | error fault => simp
    | ok accepted => cases accepted <;> simp
  rw [verdict, Transaction.accepts, bind_eq_ok]
  apply Iff.intro
  · intro accepted
    obtain ⟨input, found, rest⟩ := accepted
    obtain ⟨digest, hashed, rest⟩ := bind_eq_ok.mp rest
    obtain ⟨bytes, written, rfl⟩ := map_eq_ok.mp hashed
    obtain ⟨script, decoded, accepted⟩ := bind_eq_ok.mp rest
    exact ⟨input, script, bytes, found, written, decoded,
      UnlockingScript.accepts_eq_true.mp accepted⟩
  · intro signed
    obtain ⟨input, script, bytes, found, written, decoded, signs⟩ := signed
    have hashed : transaction.sighash position source = .ok (Digest.doubleSha256 bytes) :=
      map_eq_ok.mpr ⟨bytes, written, rfl⟩
    exact ⟨input, found, bind_eq_ok.mpr ⟨_, hashed, bind_eq_ok.mpr
      ⟨script, decoded, UnlockingScript.accepts_eq_true.mpr signs⟩⟩⟩

theorem payToKeyHash_inj {left right : Octets 20}
    (same : payToKeyHash left = payToKeyHash right) : left = right := by
  rw [payToKeyHash, payToKeyHash] at same
  exact Octets.ext (List.append_cancel_left (List.append_cancel_right same))

theorem length_encodeScript {left right : Bytes} (sizes : left.length = right.length) :
    (encodeScript left).length = (encodeScript right).length := by
  rw [encodeScript, encodeScript, List.length_append, List.length_append, sizes]

/-- Scripts of one size have one length field, so their encodings differ where they do. -/
theorem encodeScript_inj {left right : Bytes} (sizes : left.length = right.length)
    (same : encodeScript left = encodeScript right) : left = right := by
  rw [encodeScript, encodeScript, sizes] at same
  exact List.append_cancel_left same

theorem Input.length_encodeWithSlot {position index : Nat} {input : Input} {left right : Bytes}
    (sizes : left.length = right.length) :
    (input.encodeWithSlot (signingSlot position left index)).length =
      (input.encodeWithSlot (signingSlot position right index)).length := by
  have slots : (signingSlot position left index).length =
      (signingSlot position right index).length := by
    by_cases signed : index = position
    · rw [signingSlot, signingSlot, if_pos signed, if_pos signed, length_encodeScript sizes]
    · rw [signingSlot, signingSlot, if_neg signed, if_neg signed]
  rw [encodeWithSlot, encodeWithSlot]
  simp only [List.length_append, slots]

/-- At one position of one transaction the preimage tells script codes of one size apart, however
large the rest is. -/
theorem Transaction.preimage_script_inj {transaction : Transaction} {position : Nat}
    {left right : Bytes} (inside : position < transaction.inputs.length)
    (sizes : left.length = right.length)
    (same : transaction.preimage position left = transaction.preimage position right) :
    left = right := by
  rw [preimage, preimage, if_pos inside, if_pos inside, Except.ok.injEq] at same
  have inputs := List.append_cancel_left
    (List.append_cancel_right (List.append_cancel_right same))
  have lengths : (transaction.inputs.mapIdx fun index input =>
      input.encodeWithSlot (signingSlot position left index)).map List.length =
      (transaction.inputs.mapIdx fun index input =>
        input.encodeWithSlot (signingSlot position right index)).map List.length := by
    rw [List.mapIdx_eq_zipIdx_map, List.mapIdx_eq_zipIdx_map, List.map_map, List.map_map]
    simp only [Function.comp_def, Input.length_encodeWithSlot sizes]
  have entries := List.eq_iff_flatten_eq.mpr ⟨inputs, lengths⟩
  have entry := congrArg (fun parts => parts[position]?) entries
  simp only [List.getElem?_mapIdx, List.getElem?_eq_getElem inside, Option.map_some,
    Option.some.injEq, Input.encodeWithSlot, signingSlot, if_pos] at entry
  exact encodeScript_inj sizes (List.append_cancel_left (List.append_cancel_right entry))

/-- The pushed key has the hash that the known script names exactly when the bytes derived from
that key are the known ones. -/
theorem Transaction.hash_eq_iff_signingPreimage {transaction : Transaction} {position : Nat}
    {input : Input} {script : UnlockingScript} {hash : Octets 20}
    (found : transaction.inputs[position]? = some input)
    (decoded : UnlockingScript.decode input.unlockingScript = .ok script) :
    script.key.hash = hash ↔
      transaction.signingPreimage position =
        transaction.preimage position (payToKeyHash hash) := by
  have inside := (List.getElem?_eq_some_iff.mp found).1
  have sizes : (payToKeyHash script.key.hash).length = (payToKeyHash hash).length := by
    rw [length_payToKeyHash, length_payToKeyHash]
  rw [signingPreimage_eq found decoded]
  apply Iff.intro
  · intro named
    rw [named]
  · intro same
    exact payToKeyHash_inj (preimage_script_inj inside sizes same)

/-- Under a known script an input is accepted exactly when its own key verifies its signature over
the bytes with that script. -/
theorem Transaction.verdict_known_eq_ok {transaction : Transaction} {position : Nat}
    {input : Input} {scripts : List Bytes} {known : Bytes}
    (found : transaction.inputs[position]? = some input)
    (listed : scripts[position]? = some known) :
    transaction.verdict position (.known scripts) = .ok () ↔
      ∃ script bytes, UnlockingScript.decode input.unlockingScript = .ok script ∧
        transaction.preimage position known = .ok bytes ∧
        script.Signs (Digest.doubleSha256 bytes) := by
  rw [verdict_eq_ok, preimageFrom_known found listed]
  apply Iff.intro
  · intro accepted
    obtain ⟨other, script, bytes, otherFound, written, decoded, signs⟩ := accepted
    rw [input_eq_ok.mpr found, Except.ok.injEq] at otherFound
    rw [← otherFound] at decoded
    exact ⟨script, bytes, decoded, written, signs⟩
  · intro signed
    obtain ⟨script, bytes, decoded, written, signs⟩ := signed
    exact ⟨input, script, bytes, input_eq_ok.mpr found, written, decoded, signs⟩

/-- Acceptance under a script that pays to a key hash asks for a signature of the pushed key, not
for the hash of that key. The accepted key has the known hash exactly when all bytes that it signs
here are derived from it. -/
theorem Transaction.verdict_known_iff {transaction : Transaction} {position : Nat}
    {input : Input} {scripts : List Bytes} {hash : Octets 20}
    (found : transaction.inputs[position]? = some input)
    (pays : scripts[position]? = some (payToKeyHash hash)) :
    (transaction.verdict position (.known scripts) = .ok () ↔
      ∃ script bytes, UnlockingScript.decode input.unlockingScript = .ok script ∧
        transaction.preimage position (payToKeyHash hash) = .ok bytes ∧
        script.Signs (Digest.doubleSha256 bytes)) ∧
    ((transaction.verdict position (.known scripts) = .ok () →
        ∃ script, UnlockingScript.decode input.unlockingScript = .ok script ∧
          script.key.hash = hash) ↔
      ∀ script bytes, UnlockingScript.decode input.unlockingScript = .ok script →
        transaction.preimage position (payToKeyHash hash) = .ok bytes →
        script.Signs (Digest.doubleSha256 bytes) →
        transaction.signingPreimage position = .ok bytes) := by
  have accepted := verdict_known_eq_ok found pays
  refine ⟨accepted, ?_⟩
  apply Iff.intro
  · intro authorized script bytes decoded written signs
    obtain ⟨parsed, parsedDecoded, named⟩ :=
      authorized (accepted.mpr ⟨script, bytes, decoded, written, signs⟩)
    rw [← written]
    exact (hash_eq_iff_signingPreimage found parsedDecoded).mp named
  · intro derived verdict
    obtain ⟨script, bytes, decoded, written, signs⟩ := accepted.mp verdict
    have same := (derived script bytes decoded written signs).trans written.symm
    exact ⟨script, decoded, (hash_eq_iff_signingPreimage found decoded).mpr same⟩

/-- This is the key hash of the base point, which owns the spent output. -/
def ownerHash : Octets 20 := Octets.bigEndian 20 0x751e76e8199196d454941c45d1b3a323f1433bd6

/-- The double of the base point is the key of this script, not the base point itself. -/
def foreignScript : UnlockingScript where
  der := [0x30, 0x44, 0x02, 0x20] ++
    toBigEndian 32 0x79be667ef9dcbbac55a06295ce870b07029bfcdb2dce28d959f2815b16f81798 ++
    [0x02, 0x20] ++
    toBigEndian 32 0x24426258ad9cb9bbf5ef5e9beb94514c335fe4aa14978d81ed76453e4c496659
  sighashType := 0x01
  key := .compressed false (Octets.bigEndian 32
    0xc6047f9441ed7d6d3045406e95c07cd85c778e4b8cef3ca7abac09b95c709ee5)

def foreignInput : Input := ⟨Octets.bigEndian 32 5, 0, foreignScript.encode, 0xffffffff, 0⟩

def foreignSpend : Transaction := ⟨1, [foreignInput], [⟨1000, [0x51]⟩], 0⟩

theorem foreignScript_decode :
    UnlockingScript.decode foreignInput.unlockingScript = .ok foreignScript := by
  decide +kernel

/-- The signature is made over the preimage that names the owner. -/
theorem foreignSpend_accepted :
    foreignSpend.verdict 0 (.known [payToKeyHash ownerHash]) = .ok () := by
  decide +kernel

/-- The foreign key signs the bytes that name the owner. -/
theorem foreignSpend_signs :
    ∃ script bytes, UnlockingScript.decode foreignInput.unlockingScript = .ok script ∧
      foreignSpend.preimage 0 (payToKeyHash ownerHash) = .ok bytes ∧
      script.Signs (Digest.doubleSha256 bytes) :=
  (Transaction.verdict_known_iff rfl rfl).1.mp foreignSpend_accepted

/-- Acceptance under a known script does not make the pushed key the one that the script names. -/
theorem not_authorized_of_verdict_known :
    ¬ ∀ (transaction : Transaction) (position : Nat) (input : Input) (scripts : List Bytes)
      (hash : Octets 20), transaction.inputs[position]? = some input →
      scripts[position]? = some (payToKeyHash hash) →
      transaction.verdict position (.known scripts) = .ok () →
      ∃ script, UnlockingScript.decode input.unlockingScript = .ok script ∧
        script.key.hash = hash := by
  intro authorized
  obtain ⟨script, decoded, named⟩ := authorized foreignSpend 0 foreignInput
    [payToKeyHash ownerHash] ownerHash rfl rfl foreignSpend_accepted
  rw [foreignScript_decode, Except.ok.injEq] at decoded
  have foreign : foreignScript.key.hash ≠ ownerHash := by
    decide +kernel
  rw [← decoded] at named
  exact foreign named

end CoinSpend
