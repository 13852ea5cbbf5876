/-
This file states with which keys and signatures the verification equation is reached, and that only
an uncompressed key can make it fail.
-/

import CoinSpend.Proofs.Secp256k1.LowForm
import CoinSpend.Proofs.Secp256k1.Point
import CoinSpend.Proofs.UnlockingScript
import CoinSpend.Proofs.Verification.Source

namespace CoinSpend

/-- An input reaches the equation when every step in front of it succeeds. -/
structure Transaction.Reaches (transaction : Transaction) (position : Nat)
    (source : ScriptCodeSource) (script : UnlockingScript) (key : Octets 65)
    (signature : Octets 64) (digest : Octets 32) : Prop where
  decoded : ∃ input, transaction.input position = .ok input ∧
    UnlockingScript.decode input.unlockingScript = .ok script
  hashed : transaction.sighash position source = .ok digest
  supported : script.sighashType.toNat = sighashAll
  expanded : script.key.expand = .ok key
  normalized : script.normalizedSignature = .ok signature

section

variable {transaction : Transaction} {position : Nat} {source : ScriptCodeSource}
  {script : UnlockingScript} {key : Octets 65} {signature : Octets 64} {digest : Octets 32}

/-- The equation decides where it is reached. -/
theorem Transaction.Reaches.accepts_eq
    (reaches : transaction.Reaches position source script key signature digest) :
    transaction.accepts position source =
      (Secp256k1.verify key signature digest).mapError .credential := by
  obtain ⟨input, found, decoded⟩ := reaches.decoded
  have normalized := mapError_eq_ok.mp reaches.normalized
  have supported := UnlockingScript.supported_iff.mp reaches.supported
  rw [accepts, found, reaches.hashed]
  simp only [bind, Except.bind, decoded]
  exact UnlockingScript.accepts_normalized supported reaches.expanded normalized

/-- Nothing else stands in front of the equation. -/
theorem Transaction.exists_reaches {input : Input}
    (found : transaction.inputs[position]? = some input) (supplied : ¬ source.Lacks position)
    (decoded : UnlockingScript.decode input.unlockingScript = .ok script)
    (supported : script.sighashType.toNat = sighashAll) (expanded : script.key.expand = .ok key)
    (normalized : script.normalizedSignature = .ok signature) :
    ∃ digest, transaction.Reaches position source script key signature digest := by
  obtain ⟨signed, reads⟩ := exists_reads found supplied decoded
  obtain ⟨code, given, written⟩ := reads.written
  have hashed : transaction.sighash position source = .ok (Digest.doubleSha256 signed) := by
    rw [sighash, preimageFrom_eq found decoded given, written]
    rfl
  exact ⟨_, ⟨input, input_eq_ok.mpr found, decoded⟩, hashed, supported, expanded, normalized⟩

/-- A normalized signature is one that the equation can be asked about. -/
theorem Secp256k1.exists_parts_of_normalizeDer {der : Bytes}
    (normalized : normalizeDer der = .ok signature) :
    ∃ parts, Signature.ofCompact? signature = some parts := by
  obtain ⟨parts, inRange, -, rfl⟩ := exists_low_of_normalizeDer normalized
  exact ⟨parts, Signature.ofCompact?_toCompact inRange⟩

/-- With a signature that can be read only the key can be refused. -/
theorem Secp256k1.verify_eq_error {parts : Signature} {fault : CredentialFault}
    (read : Signature.ofCompact? signature = some parts) :
    verify key signature digest = .error fault ↔
      fault = .malformedKey ∧ Point.decode? key.bytes = none := by
  rw [verify, read]
  cases Point.decode? key.bytes with
  | none => simp [eq_comm]
  | some point => simp

theorem PublicKey.decode?_expand_eq_none {key : PublicKey} {octets : Octets 65}
    (expanded : key.expand = .ok octets) :
    Secp256k1.Point.decode? octets.bytes = none ↔ ∃ x y, key = .uncompressed x y ∧
      ¬ Secp256k1.Point.OnCurve ⟨x.bigEndianValue, y.bigEndianValue⟩ := by
  cases key with
  | compressed odd x =>
      obtain ⟨point, found⟩ := exists_point_of_expand expanded
      simp [found]
  | uncompressed x y =>
      cases expanded
      rw [decode?_uncompressedOctets_eq_none]
      simp

/-- A compressed key that is expanded can be used with every normalized signature. -/
theorem PublicKey.usable_of_expand {odd : Bool} {x : Octets 32} {der : Bytes}
    (expanded : (PublicKey.compressed odd x).expand = .ok key)
    (normalized : Secp256k1.normalizeDer der = .ok signature) (digest : Octets 32) :
    ∃ holds, Secp256k1.verify key signature digest = .ok holds := by
  obtain ⟨parts, read⟩ := Secp256k1.exists_parts_of_normalizeDer normalized
  obtain ⟨point, found⟩ := exists_point_of_expand expanded
  rw [Secp256k1.verify, found, read]
  exact ⟨_, rfl⟩

/-- Where the equation is reached, only an uncompressed key off the curve makes it fail. -/
theorem Transaction.Reaches.verify_eq_error {fault : CredentialFault}
    (reaches : transaction.Reaches position source script key signature digest) :
    Secp256k1.verify key signature digest = .error fault ↔
      fault = .malformedKey ∧ ∃ x y, script.key = .uncompressed x y ∧
        ¬ Secp256k1.Point.OnCurve ⟨x.bigEndianValue, y.bigEndianValue⟩ := by
  obtain ⟨parts, read⟩ :=
    Secp256k1.exists_parts_of_normalizeDer (mapError_eq_ok.mp reaches.normalized)
  rw [Secp256k1.verify_eq_error read, PublicKey.decode?_expand_eq_none reaches.expanded]

/-- The encoding of the signature is refused for the bytes in front of the type, never by the
equation. -/
theorem Transaction.der_of_verdict {fault : Fault}
    (rejected : transaction.verdict position source = .error (.malformed fault))
    (coded : fault.code = .signatureEncoding) :
    fault = .credential .malformedSignature ∧ ∃ input script,
      transaction.inputs[position]? = some input ∧
      UnlockingScript.decode input.unlockingScript = .ok script ∧
      Secp256k1.normalizeDer script.der = .error .malformedSignature := by
  obtain ⟨outcome, judged⟩ := transaction.exists_judged position source
  have same := verdict_of_judged judged
  rw [rejected] at same
  subst same
  cases judged with
  | noInput outside => cases coded
  | noPreviousOutput inside lacking => cases coded
  | unreadableScript found supplied refused =>
      rcases UnlockingScript.decode_eq_error refused with ⟨parse, -⟩ | ⟨noKey, -⟩
      · rw [parse] at coded
        cases coded
      · rw [noKey] at coded
        cases coded
  | unsupportedType reads unsupported => cases coded
  | unusableKey reads supported compressed refused =>
      rw [Secp256k1.decompress_eq_error refused] at coded
      cases coded
  | unusableSignature reads supported expanded refused =>
      obtain ⟨input, found, decoded⟩ := reads.decoded
      have malformed := Secp256k1.normalizeDer_eq_error refused
      rw [malformed] at refused
      exact ⟨congrArg Fault.credential malformed, input, _, found, decoded, refused⟩
  | unusableEquation reads supported expanded normalized refused =>
      obtain ⟨parts, read⟩ := Secp256k1.exists_parts_of_normalizeDer normalized
      rw [((Secp256k1.verify_eq_error read).mp refused).1] at coded
      cases coded

/-- Wherever the equation is reached it can be asked, unless the key is uncompressed and no point of
the curve. The equation never refuses the signature, whose encoding can fail only in DER, and it
never refuses a compressed key that was expanded. -/
theorem Transaction.equation_usable (transaction : Transaction) (position : Nat)
    (source : ScriptCodeSource) :
    (∀ script key signature digest,
      transaction.Reaches position source script key signature digest →
      transaction.accepts position source =
        (Secp256k1.verify key signature digest).mapError .credential ∧
      (∀ fault, Secp256k1.verify key signature digest = .error fault →
        fault.concernsKey = true) ∧
      (script.key.isCompressed = true →
        ∃ holds, Secp256k1.verify key signature digest = .ok holds) ∧
      (∀ fault, Secp256k1.verify key signature digest = .error fault ↔
        fault = .malformedKey ∧ ∃ x y, script.key = .uncompressed x y ∧
          ¬ (x.bigEndianValue < Secp256k1.fieldSize ∧ y.bigEndianValue < Secp256k1.fieldSize ∧
            (y.bigEndianValue : ZMod Secp256k1.fieldSize) ^ 2 =
              (x.bigEndianValue : ZMod Secp256k1.fieldSize) ^ 3 + 7))) ∧
    FaultCode.signatureEncoding.label = "TX_ERR_SIG_ENCODING" ∧
    (∀ fault, transaction.verdict position source = .error (.malformed fault) →
      fault.code = .signatureEncoding →
      fault = .credential .malformedSignature ∧ ∃ input script,
        transaction.inputs[position]? = some input ∧
        UnlockingScript.decode input.unlockingScript = .ok script ∧
        Secp256k1.normalizeDer script.der = .error .malformedSignature) ∧
    (∀ odd x key der signature digest,
      Secp256k1.decompress (PublicKey.compressedOctets odd x) = .ok key →
      Secp256k1.normalizeDer der = .ok signature →
      ∃ holds, Secp256k1.verify key signature digest = .ok holds) := by
  refine ⟨?_, rfl, fun fault => der_of_verdict, ?_⟩
  · intro script key signature digest reaches
    refine ⟨reaches.accepts_eq, ?_, ?_, ?_⟩
    · intro fault refused
      rw [(reaches.verify_eq_error.mp refused).1]
      rfl
    · intro compressed
      have expanded := reaches.expanded
      cases pushed : script.key with
      | compressed odd x =>
          rw [pushed] at expanded
          exact PublicKey.usable_of_expand expanded (mapError_eq_ok.mp reaches.normalized) digest
      | uncompressed x y =>
          rw [pushed] at compressed
          cases compressed
    · intro fault
      rw [reaches.verify_eq_error]
      simp only [Secp256k1.Point.onCurve_iff]
  · intro odd x key der signature digest decompressed normalized
    exact PublicKey.usable_of_expand decompressed normalized digest

end

/-- A script with this key carries the signature of the two numbers one. -/
def unitScript (key : PublicKey) : UnlockingScript where
  der := Secp256k1.Signature.encodeDer ⟨1, 1⟩
  sighashType := 0x01
  key := key

/-- The curve does not pass through the origin. -/
def strayKey : PublicKey := .uncompressed (Octets.bigEndian 32 0) (Octets.bigEndian 32 0)

/-- The first key is the base point, the second one is no point, and the third signature is cut
off. -/
def straySpend : Transaction where
  version := 1
  inputs := [unitScript (.compressedOf .base), unitScript strayKey,
    { unitScript strayKey with der := [0x30] }].map fun script =>
      ⟨Octets.bigEndian 32 5, 0, script.encode, 0xffffffff, 0⟩
  outputs := [⟨1000, [0x51]⟩]
  locktime := 0

theorem unitScript_decode (key : PublicKey) :
    UnlockingScript.decode (unitScript key).encode = .ok (unitScript key) :=
  UnlockingScript.decode_eq_ok.mpr ⟨Secp256k1.Signature.length_encodeDer _, rfl⟩

theorem unitScript_normalized (key : PublicKey) :
    ∃ signature, (unitScript key).normalizedSignature = .ok signature :=
  ⟨_, mapError_eq_ok.mpr (Secp256k1.normalizeDer_encodeDer (by decide))⟩

theorem straySpend_rejected :
    straySpend.verdict 2 .derived = .error (.malformed (.credential .malformedSignature)) := by
  decide +kernel

/-- The compressed key can be asked, the stray key makes the equation fail, and the cut signature
fails in DER. -/
theorem straySpend_equation :
    (∃ key signature digest, straySpend.Reaches 0 .derived (unitScript (.compressedOf .base)) key
        signature digest ∧ ∃ holds, Secp256k1.verify key signature digest = .ok holds) ∧
      (∃ key signature digest,
        straySpend.Reaches 1 .derived (unitScript strayKey) key signature digest ∧
          Secp256k1.verify key signature digest = .error .malformedKey) ∧
      ∃ input script, straySpend.inputs[2]? = some input ∧
        UnlockingScript.decode input.unlockingScript = .ok script ∧
        Secp256k1.normalizeDer script.der = .error .malformedSignature := by
  refine ⟨?_, ?_, ?_⟩
  · obtain ⟨signature, normalized⟩ := unitScript_normalized (.compressedOf .base)
    have expanded := PublicKey.expand_compressedOf Secp256k1.Point.base_onCurve
    have reached : ∃ digest, straySpend.Reaches 0 .derived _ _ signature digest :=
      Transaction.exists_reaches rfl not_false (unitScript_decode _) rfl expanded normalized
    obtain ⟨digest, reaches⟩ := reached
    exact ⟨_, signature, digest, reaches,
      ((straySpend.equation_usable 0 .derived).1 _ _ _ _ reaches).2.2.1 rfl⟩
  · obtain ⟨signature, normalized⟩ := unitScript_normalized strayKey
    have reached : ∃ digest, straySpend.Reaches 1 .derived _ _ signature digest :=
      Transaction.exists_reaches rfl not_false (unitScript_decode _) rfl rfl normalized
    obtain ⟨digest, reaches⟩ := reached
    have origin : (Octets.bigEndian 32 0).bigEndianValue = 0 := by
      decide
    refine ⟨_, signature, digest, reaches,
      (((straySpend.equation_usable 1 .derived).1 _ _ _ _ reaches).2.2.2 _).mpr
        ⟨rfl, _, _, rfl, ?_⟩⟩
    rintro ⟨-, -, equation⟩
    rw [origin] at equation
    revert equation
    decide
  · exact ((straySpend.equation_usable 2 .derived).2.2.1 _ straySpend_rejected rfl).2

end CoinSpend
