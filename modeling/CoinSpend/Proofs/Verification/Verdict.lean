/-
This file states in which order an input is judged: the first of nine rungs that applies decides
the verdict.
-/

import CoinSpend.Proofs.ScriptCode
import CoinSpend.Verification

namespace CoinSpend

namespace Secp256k1

/-- A key that cannot be expanded is malformed. -/
theorem decompress_eq_error {key : Octets 33} {fault : CredentialFault}
    (refused : decompress key = .error fault) : fault = .malformedKey := by
  unfold decompress at refused
  split at refused
  · cases refused
  · exact (Except.error.inj refused).symm

/-- A signature that cannot be read is malformed. -/
theorem normalizeDer_eq_error {der : Bytes} {fault : CredentialFault}
    (refused : normalizeDer der = .error fault) : fault = .malformedSignature := by
  unfold normalizeDer at refused
  split at refused
  · cases refused
  · exact (Except.error.inj refused).symm

end Secp256k1

/-- Only a compressed key can fail to expand. -/
theorem PublicKey.expand_eq_error {key : PublicKey} {fault : CredentialFault} :
    key.expand = .error fault ↔ ∃ odd x, key = .compressed odd x ∧
      Secp256k1.decompress (compressedOctets odd x) = .error fault := by
  constructor
  · intro refused
    cases key with
    | compressed odd x => exact ⟨odd, x, rfl, refused⟩
    | uncompressed x y => cases refused
  · rintro ⟨odd, x, rfl, refused⟩
    exact refused

theorem UnlockingScript.supported_iff {script : UnlockingScript} :
    script.sighashType.toNat = sighashAll ↔ script.sighashType = 0x01 :=
  UInt8.toNat_inj (b := 0x01)

/-- With the supported type the key is expanded first and the signature is read next. -/
theorem UnlockingScript.accepts_supported {script : UnlockingScript} {digest : Octets 32}
    (supported : script.sighashType = 0x01) :
    script.accepts digest = (do
      let key ← script.key.expand.mapError .credential
      let signature ← script.normalizedSignature
      (Secp256k1.verify key signature digest).mapError .credential) := by
  rw [accepts, if_neg (fun other => other (supported_iff.mpr supported))]

theorem UnlockingScript.accepts_unsupported {script : UnlockingScript} {digest : Octets 32}
    (unsupported : script.sighashType ≠ 0x01) :
    script.accepts digest = .error (.sighashType script.sighashType) := by
  rw [accepts, if_pos (fun same => unsupported (supported_iff.mp same))]
  rfl

/-- With a key and a signature at hand, the equation decides. -/
theorem UnlockingScript.accepts_normalized {script : UnlockingScript} {digest : Octets 32}
    {key : Octets 65} {signature : Octets 64} (supported : script.sighashType = 0x01)
    (expanded : script.key.expand = .ok key)
    (normalized : Secp256k1.normalizeDer script.der = .ok signature) :
    script.accepts digest = (Secp256k1.verify key signature digest).mapError .credential := by
  rw [accepts_supported supported, expanded, normalizedSignature, normalized]
  rfl

/-- A readable input has a script with its parts and a preimage to sign. -/
structure Transaction.Reads (transaction : Transaction) (position : Nat)
    (source : ScriptCodeSource) (script : UnlockingScript) (signed : Bytes) : Prop where
  decoded : ∃ input, transaction.inputs[position]? = some input ∧
    UnlockingScript.decode input.unlockingScript = .ok script
  written : ∃ code, source.codeFor? position script.key = some code ∧
    transaction.preimage position code = .ok signed

/-- These are the rungs of the ladder from top to bottom; each one says what is judged when no
rung above it applies. -/
inductive Transaction.Judged (transaction : Transaction) (position : Nat)
    (source : ScriptCodeSource) : Except Failure Unit → Prop
  | noInput (outside : transaction.inputs.length ≤ position) :
      Judged transaction position source
        (.error (.malformed (.noInput position transaction.inputs.length)))
  | noPreviousOutput (inside : position < transaction.inputs.length)
      (lacking : source.Lacks position) :
      Judged transaction position source (.error (.malformed (.noPreviousOutput position)))
  | unreadableScript {input : Input} {fault : Fault}
      (found : transaction.inputs[position]? = some input) (supplied : ¬ source.Lacks position)
      (refused : UnlockingScript.decode input.unlockingScript = .error fault) :
      Judged transaction position source (.error (.malformed fault))
  | unsupportedType {script : UnlockingScript} {signed : Bytes}
      (reads : transaction.Reads position source script signed)
      (unsupported : script.sighashType ≠ 0x01) :
      Judged transaction position source
        (.error (.malformed (.sighashType script.sighashType)))
  | unusableKey {script : UnlockingScript} {signed : Bytes} {odd : Bool} {x : Octets 32}
      {fault : CredentialFault} (reads : transaction.Reads position source script signed)
      (supported : script.sighashType = 0x01) (compressed : script.key = .compressed odd x)
      (refused : Secp256k1.decompress (PublicKey.compressedOctets odd x) = .error fault) :
      Judged transaction position source (.error (.malformed (.credential fault)))
  | unusableSignature {script : UnlockingScript} {signed : Bytes} {key : Octets 65}
      {fault : CredentialFault} (reads : transaction.Reads position source script signed)
      (supported : script.sighashType = 0x01) (expanded : script.key.expand = .ok key)
      (refused : Secp256k1.normalizeDer script.der = .error fault) :
      Judged transaction position source (.error (.malformed (.credential fault)))
  | unusableEquation {script : UnlockingScript} {signed : Bytes} {key : Octets 65}
      {signature : Octets 64} {fault : CredentialFault}
      (reads : transaction.Reads position source script signed)
      (supported : script.sighashType = 0x01) (expanded : script.key.expand = .ok key)
      (normalized : Secp256k1.normalizeDer script.der = .ok signature)
      (refused : Secp256k1.verify key signature (Digest.doubleSha256 signed) = .error fault) :
      Judged transaction position source (.error (.malformed (.credential fault)))
  | badSignature {script : UnlockingScript} {signed : Bytes} {key : Octets 65}
      {signature : Octets 64} (reads : transaction.Reads position source script signed)
      (supported : script.sighashType = 0x01) (expanded : script.key.expand = .ok key)
      (normalized : Secp256k1.normalizeDer script.der = .ok signature)
      (fails : Secp256k1.verify key signature (Digest.doubleSha256 signed) = .ok false) :
      Judged transaction position source (.error .badSignature)
  | verified {script : UnlockingScript} {signed : Bytes} {key : Octets 65}
      {signature : Octets 64} (reads : transaction.Reads position source script signed)
      (supported : script.sighashType = 0x01) (expanded : script.key.expand = .ok key)
      (normalized : Secp256k1.normalizeDer script.der = .ok signature)
      (holds : Secp256k1.verify key signature (Digest.doubleSha256 signed) = .ok true) :
      Judged transaction position source (.ok ())

/-- The missing input is noticed before the source is asked. -/
theorem Transaction.accepts_outside {transaction : Transaction} {position : Nat}
    {source : ScriptCodeSource} (outside : transaction.inputs.length ≤ position) :
    transaction.accepts position source =
      .error (.noInput position transaction.inputs.length) := by
  rw [accepts, input_outside outside]
  rfl

/-- The missing script is noticed before the script of the input is read. -/
theorem Transaction.accepts_lacking {transaction : Transaction} {position : Nat}
    {source : ScriptCodeSource} (inside : position < transaction.inputs.length)
    (lacking : source.Lacks position) :
    transaction.accepts position source = .error (.noPreviousOutput position) := by
  cases source with
  | derived => exact absurd lacking not_false
  | known scripts =>
      have found := List.getElem?_eq_getElem inside
      have missing : scripts[position]? = none := List.getElem?_eq_none lacking
      rw [accepts, sighash, preimageFrom, input_eq_ok.mpr found]
      simp only [bind, Except.bind, ScriptCodeSource.scriptCode, missing, Except.map]

/-- The derived source reads the script first and the verifier reads it again, so both sources
report one fault. -/
theorem Transaction.accepts_unreadable {transaction : Transaction} {position : Nat}
    {source : ScriptCodeSource} {input : Input} {fault : Fault}
    (found : transaction.inputs[position]? = some input) (supplied : ¬ source.Lacks position)
    (refused : UnlockingScript.decode input.unlockingScript = .error fault) :
    transaction.accepts position source = .error fault := by
  have inside := (List.getElem?_eq_some_iff.mp found).1
  rw [accepts, sighash]
  -- The derived source fails on the script before there is a preimage; under a known script the
  -- preimage is written and hashed first.
  cases source with
  | derived =>
      rw [preimageFrom, input_eq_ok.mpr found]
      simp only [bind, Except.bind, ScriptCodeSource.scriptCode, Input.publicKey, refused,
        Except.map]
  | known scripts =>
      have listed := List.getElem?_eq_getElem (Nat.lt_of_not_le supplied)
      rw [preimageFrom_known found listed, preimage, if_pos inside, input_eq_ok.mpr found]
      simp only [bind, Except.bind, refused, Except.map]

/-- A readable input is judged by its script and the digest of its preimage. -/
theorem Transaction.accepts_reads {transaction : Transaction} {position : Nat}
    {source : ScriptCodeSource} {script : UnlockingScript} {signed : Bytes}
    (reads : transaction.Reads position source script signed) :
    transaction.accepts position source = script.accepts (Digest.doubleSha256 signed) := by
  obtain ⟨input, found, decoded⟩ := reads.decoded
  obtain ⟨code, given, written⟩ := reads.written
  rw [accepts, sighash, preimageFrom_eq found decoded given, written, input_eq_ok.mpr found]
  simp only [bind, Except.bind, decoded, Except.map]

theorem Transaction.exists_reads {transaction : Transaction} {position : Nat}
    {source : ScriptCodeSource} {input : Input} {script : UnlockingScript}
    (found : transaction.inputs[position]? = some input) (supplied : ¬ source.Lacks position)
    (decoded : UnlockingScript.decode input.unlockingScript = .ok script) :
    ∃ signed, transaction.Reads position source script signed := by
  have inside := (List.getElem?_eq_some_iff.mp found).1
  obtain ⟨code, given⟩ := ScriptCodeSource.exists_codeFor supplied script.key
  exact ⟨_, ⟨input, found, decoded⟩, code, given, by rw [preimage, if_pos inside]⟩

/-- Every rung is the verdict where it applies. -/
theorem Transaction.verdict_of_judged {transaction : Transaction} {position : Nat}
    {source : ScriptCodeSource} {outcome : Except Failure Unit}
    (judged : transaction.Judged position source outcome) :
    transaction.verdict position source = outcome := by
  rw [verdict]
  cases judged with
  | noInput outside => rw [accepts_outside outside]
  | noPreviousOutput inside lacking => rw [accepts_lacking inside lacking]
  | unreadableScript found supplied refused => rw [accepts_unreadable found supplied refused]
  | unsupportedType reads unsupported =>
      rw [accepts_reads reads, UnlockingScript.accepts_unsupported unsupported]
  | unusableKey reads supported compressed refused =>
      have failed := PublicKey.expand_eq_error.mpr ⟨_, _, compressed, refused⟩
      rw [accepts_reads reads, UnlockingScript.accepts_supported supported, failed]
      rfl
  | unusableSignature reads supported expanded refused =>
      rw [accepts_reads reads, UnlockingScript.accepts_supported supported, expanded,
        UnlockingScript.normalizedSignature, refused]
      rfl
  | unusableEquation reads supported expanded normalized refused =>
      rw [accepts_reads reads, UnlockingScript.accepts_normalized supported expanded normalized,
        refused]
      rfl
  | badSignature reads supported expanded normalized fails =>
      rw [accepts_reads reads, UnlockingScript.accepts_normalized supported expanded normalized,
        fails]
      rfl
  | verified reads supported expanded normalized holds =>
      rw [accepts_reads reads, UnlockingScript.accepts_normalized supported expanded normalized,
        holds]
      rfl

/-- A readable input stands on one of the six lower rungs. -/
theorem Transaction.judged_of_reads {transaction : Transaction} {position : Nat}
    {source : ScriptCodeSource} {script : UnlockingScript} {signed : Bytes}
    (reads : transaction.Reads position source script signed) :
    ∃ outcome, transaction.Judged position source outcome := by
  by_cases supported : script.sighashType = 0x01
  · cases expanded : script.key.expand with
    | error fault =>
        obtain ⟨odd, x, compressed, refused⟩ := PublicKey.expand_eq_error.mp expanded
        exact ⟨_, .unusableKey reads supported compressed refused⟩
    | ok key =>
        cases normalized : Secp256k1.normalizeDer script.der with
        | error fault => exact ⟨_, .unusableSignature reads supported expanded normalized⟩
        | ok signature =>
            cases verified : Secp256k1.verify key signature (Digest.doubleSha256 signed) with
            | error fault =>
                exact ⟨_, .unusableEquation reads supported expanded normalized verified⟩
            | ok holds =>
                cases holds with
                | false => exact ⟨_, .badSignature reads supported expanded normalized verified⟩
                | true => exact ⟨_, .verified reads supported expanded normalized verified⟩
  · exact ⟨_, .unsupportedType reads supported⟩

/-- The ladder leaves no input out. -/
theorem Transaction.exists_judged (transaction : Transaction) (position : Nat)
    (source : ScriptCodeSource) : ∃ outcome, transaction.Judged position source outcome := by
  by_cases inside : position < transaction.inputs.length
  · have found := List.getElem?_eq_getElem inside
    by_cases lacking : source.Lacks position
    · exact ⟨_, .noPreviousOutput inside lacking⟩
    · cases decoded : UnlockingScript.decode transaction.inputs[position].unlockingScript with
      | error fault => exact ⟨_, .unreadableScript found lacking decoded⟩
      | ok script =>
          obtain ⟨signed, reads⟩ := exists_reads found lacking decoded
          exact judged_of_reads reads
  · exact ⟨_, .noInput (Nat.le_of_not_lt inside)⟩

/-- The verdict is the first rung that applies, and the upper rungs and the rungs of the key and of
the signature show their codes. -/
theorem Transaction.verdict_eq_iff_judged (transaction : Transaction) (position : Nat)
    (source : ScriptCodeSource) :
    (∀ outcome, transaction.verdict position source = outcome ↔
      transaction.Judged position source outcome) ∧
    (∀ count, (Fault.noInput position count).code.label = "TX_ERR_INPUT_INDEX" ∧
      (Fault.noInput position count).message =
        s!"input {position} not in transaction with {count} inputs") ∧
    ((Fault.noPreviousOutput position).code.label = "TX_ERR_INPUT_INDEX" ∧
      (Fault.noPreviousOutput position).message =
        s!"no previous output script for input {position}") ∧
    (∀ value, (Fault.sighashType value).code.label = "TX_ERR_SIGHASH_TYPE") ∧
    (∀ key fault, Secp256k1.decompress key = .error fault →
      (Fault.credential fault).code.label = "TX_ERR_PUBKEY_ENCODING") ∧
    (∀ der fault, Secp256k1.normalizeDer der = .error fault →
      (Fault.credential fault).code.label = "TX_ERR_SIG_ENCODING") := by
  refine ⟨fun outcome => ⟨?_, verdict_of_judged⟩, fun count => ⟨rfl, rfl⟩, ⟨rfl, rfl⟩,
    fun value => rfl, ?_, ?_⟩
  · rintro rfl
    obtain ⟨outcome, judged⟩ := transaction.exists_judged position source
    rwa [verdict_of_judged judged]
  · intro key fault refused
    rw [Secp256k1.decompress_eq_error refused]
    rfl
  · intro der fault refused
    rw [Secp256k1.normalizeDer_eq_error refused]
    rfl

end CoinSpend
