/-
This file states which unlocking scripts are read, what is read from them and why the others are
refused.
-/

import CoinSpend.Proofs.Decoder
import CoinSpend.Proofs.Outcome
import CoinSpend.Proofs.PublicKey
import CoinSpend.UnlockingScript

namespace CoinSpend

/-- A direct push carries some bytes, few enough to state their number in its opcode. -/
def DirectlyPushed (bytes : Bytes) : Prop := 1 ≤ bytes.length ∧ bytes.length ≤ 75

theorem directPush_iff {opcode : UInt8} :
    ¬ (opcode = 0 ∨ maxDirectPush < opcode) ↔ 1 ≤ opcode.toNat ∧ opcode.toNat ≤ 75 := by
  have zero : opcode = 0 ↔ opcode.toNat = 0 := UInt8.toNat_inj.symm
  have above : maxDirectPush < opcode ↔ 75 < opcode.toNat := UInt8.lt_iff_toNat_lt
  rw [zero, above]
  omega

theorem Push.decoder_inverts (push : Push) : push.decoder.Inverts encodePush DirectlyPushed := by
  intro cursor next bytes
  rw [decoder, Decoder.bind_eq, Decoder.bind_run_ok]
  simp only [Decoder.byte_inverts.run_ok, true_and]
  rw [encodePush, Cursor.passes_cons]
  constructor
  · intro parts
    obtain ⟨opcode, middle, passes, accepted⟩ := parts
    by_cases direct : opcode = 0 ∨ maxDirectPush < opcode
    · rw [if_pos direct] at accepted
      cases accepted
    · rw [if_neg direct] at accepted
      obtain ⟨octets, after, passesBytes, finished⟩ := Decoder.take_run_ok.mp accepted
      obtain ⟨rfl, rfl⟩ := Decoder.done_run_ok.mp finished
      have bounds := directPush_iff.mp direct
      rw [DirectlyPushed, octets.length_eq, UInt8.ofNat_toNat]
      exact ⟨bounds, middle, passes, passesBytes⟩
  · intro parts
    obtain ⟨pushed, middle, passes, passesBytes⟩ := parts
    have size : (UInt8.ofNat bytes.length).toNat = bytes.length :=
      UInt8.toNat_ofNat_of_lt' (Nat.lt_of_le_of_lt pushed.2 (by decide))
    have direct : ¬ (UInt8.ofNat bytes.length = 0 ∨ maxDirectPush < UInt8.ofNat bytes.length) := by
      rw [directPush_iff, size]
      exact pushed
    refine ⟨UInt8.ofNat bytes.length, middle, passes, ?_⟩
    rw [if_neg direct]
    exact Decoder.take_run_ok.mpr
      ⟨⟨bytes, size.symm⟩, next, passesBytes, Decoder.done_run_ok.mpr ⟨rfl, rfl⟩⟩

theorem splitSignature_concat (der : Bytes) (sighashType : UInt8) :
    splitSignature (der ++ [sighashType]) =
      if der.isEmpty then .fail .emptySignature else .done (der, sighashType) := by
  rw [splitSignature, List.getLast?_concat, List.dropLast_concat]

/-- The pushed bytes are split in one way, and something has to stand in front of the type. -/
theorem splitSignature_run_ok {pushed der : Bytes} {sighashType : UInt8} {cursor next : Cursor} :
    (splitSignature pushed).run cursor = .ok ((der, sighashType), next) ↔
      (1 ≤ der.length ∧ pushed = der ++ [sighashType]) ∧ next = cursor := by
  constructor
  · intro accepted
    rcases List.eq_nil_or_concat pushed with empty | ⟨front, last, split⟩
    · rw [empty] at accepted
      cases accepted
    · rw [split, List.concat_eq_append, splitSignature_concat] at accepted
      by_cases empty : front.isEmpty
      · rw [if_pos empty] at accepted
        cases accepted
      · rw [if_neg empty] at accepted
        obtain ⟨parts, rfl⟩ := Decoder.done_run_ok.mp accepted
        cases parts
        have filled : der ≠ [] := fun nothing => empty (List.isEmpty_iff.mpr nothing)
        rw [split, List.concat_eq_append]
        exact ⟨⟨List.length_pos_iff.mpr filled, rfl⟩, rfl⟩
  · intro parts
    obtain ⟨⟨filled, rfl⟩, rfl⟩ := parts
    have nonempty : ¬ der.isEmpty := fun nothing =>
      List.ne_nil_of_length_pos filled (List.isEmpty_iff.mp nothing)
    rw [splitSignature_concat, if_neg nonempty]
    rfl

theorem pushesDecoder_inverts :
    pushesDecoder.Inverts
      (fun parts => encodePush (parts.1.1 ++ [parts.1.2]) ++ encodePush parts.2)
      fun parts => (1 ≤ parts.1.1.length ∧ parts.1.1.length ≤ 74) ∧ DirectlyPushed parts.2 := by
  intro cursor next parts
  obtain ⟨⟨der, sighashType⟩, pushed⟩ := parts
  simp only [pushesDecoder, Decoder.bind_eq, Decoder.bind_run_ok, Prod.exists,
    (Push.decoder_inverts _).run_ok, splitSignature_run_ok, Decoder.pure_eq, Decoder.done_run_ok,
    Cursor.passes_append]
  constructor
  · intro accepted
    obtain ⟨signature, first, ⟨signatureFits, signaturePasses⟩, front, last, second,
      ⟨⟨filled, rfl⟩, rfl⟩, key, third, ⟨keyFits, keyPasses⟩, same, rfl⟩ := accepted
    cases same
    have size := signatureFits.2
    rw [List.length_append, List.length_singleton] at size
    exact ⟨⟨⟨filled, by omega⟩, keyFits⟩, second, signaturePasses, keyPasses⟩
  · intro parts
    obtain ⟨⟨⟨filled, short⟩, keyFits⟩, middle, signaturePasses, keyPasses⟩ := parts
    have signatureFits : DirectlyPushed (der ++ [sighashType]) := by
      rw [DirectlyPushed, List.length_append, List.length_singleton]
      omega
    exact ⟨_, middle, ⟨signatureFits, signaturePasses⟩, der, sighashType, middle,
      ⟨⟨filled, rfl⟩, rfl⟩, pushed, next, ⟨keyFits, keyPasses⟩, rfl, rfl⟩

theorem Push.decoder_failsOnly (push : Push) :
    push.decoder.FailsOnly fun fault => fault.code = .parse := by
  have opcodeRead : Decoder.byte.FailsOnly fun fault => fault.code = .parse :=
    Decoder.bind_failsOnly
      (Decoder.take_failsOnly (fun _ _ => rfl) fun _ => Decoder.done_failsOnly _ _)
      fun _ => Decoder.done_failsOnly _ _
  apply Decoder.bind_failsOnly opcodeRead
  intro opcode
  by_cases direct : opcode = 0 ∨ maxDirectPush < opcode
  · rw [if_pos direct]
    exact Decoder.fail_failsOnly rfl
  · rw [if_neg direct]
    exact Decoder.take_failsOnly (fun _ _ => rfl) fun _ => Decoder.done_failsOnly _ _

theorem splitSignature_failsOnly (pushed : Bytes) :
    (splitSignature pushed).FailsOnly fun fault => fault.code = .parse := by
  rcases List.eq_nil_or_concat pushed with rfl | ⟨front, last, rfl⟩
  · exact Decoder.fail_failsOnly rfl
  · rw [List.concat_eq_append, splitSignature_concat]
    by_cases empty : front.isEmpty
    · rw [if_pos empty]
      exact Decoder.fail_failsOnly rfl
    · rw [if_neg empty]
      exact Decoder.done_failsOnly _ _

/-- Whatever is wrong with the pushes or behind them makes the script malformed. -/
theorem code_of_pushes_refused {script : Bytes} {fault : Fault}
    (refused : pushesDecoder.runAll .trailingAfterKey script = .error fault) :
    fault.code = .parse := by
  have pushes : pushesDecoder.FailsOnly fun fault => fault.code = .parse :=
    Decoder.bind_failsOnly (Push.decoder_failsOnly .signature) fun pushed =>
      Decoder.bind_failsOnly (splitSignature_failsOnly pushed) fun _ =>
        Decoder.bind_failsOnly (Push.decoder_failsOnly .publicKey) fun _ =>
          Decoder.done_failsOnly _ _
  exact pushes.runAll (fun _ => rfl) refused

theorem PublicKey.Encoding.directlyPushed {compressed : Bool} {bytes : Bytes}
    (encoding : Encoding compressed bytes) : DirectlyPushed bytes := by
  rw [DirectlyPushed]
  cases encoding with
  | compressed size tag => omega
  | uncompressed size tag => omega

/-- A script is read exactly when it is the written form of its parts and the signature has a length
that can be pushed together with its type. -/
theorem UnlockingScript.decode_eq_ok {script : Bytes} {parts : UnlockingScript} :
    decode script = .ok parts ↔
      (1 ≤ parts.der.length ∧ parts.der.length ≤ 74) ∧ script = parts.encode := by
  rw [decode, bind_eq_ok]
  constructor
  · intro accepted
    obtain ⟨⟨⟨der, sighashType⟩, pushed⟩, split, rest⟩ := accepted
    obtain ⟨key, classified, finished⟩ := bind_eq_ok.mp rest
    cases finished
    obtain ⟨⟨fits, -⟩, rfl⟩ := pushesDecoder_inverts.runAll_ok.mp split
    rw [← PublicKey.ofBytes_eq_ok.mp (mapError_eq_ok.mp classified)]
    exact ⟨fits, rfl⟩
  · intro written
    obtain ⟨fits, rfl⟩ := written
    have classified := PublicKey.ofBytes_eq_ok.mpr (Eq.refl parts.key.bytes)
    have split : pushesDecoder.runAll .trailingAfterKey parts.encode =
        .ok ((parts.der, parts.sighashType), parts.key.bytes) :=
      pushesDecoder_inverts.runAll_ok.mpr
        ⟨⟨fits, parts.key.encoding_bytes.directlyPushed⟩, rfl⟩
    exact ⟨_, split, bind_eq_ok.mpr ⟨parts.key, mapError_eq_ok.mpr classified, rfl⟩⟩

/-- The two pushes of a script leave nothing over, and the first one has room for a type. -/
theorem pushes_eq_ok {script pushed : Bytes} :
    (∃ signature, pushesDecoder.runAll .trailingAfterKey script = .ok (signature, pushed)) ↔
      ∃ signature : Bytes, (2 ≤ signature.length ∧ signature.length ≤ 75) ∧
        DirectlyPushed pushed ∧ script = encodePush signature ++ encodePush pushed := by
  simp only [pushesDecoder_inverts.runAll_ok]
  constructor
  · intro split
    obtain ⟨⟨der, sighashType⟩, ⟨⟨filled, short⟩, keyFits⟩, written⟩ := split
    refine ⟨der ++ [sighashType], ?_, keyFits, written⟩
    rw [List.length_append, List.length_singleton]
    exact ⟨Nat.succ_le_succ filled, Nat.succ_le_succ short⟩
  · intro written
    obtain ⟨signature, fits, keyFits, rfl⟩ := written
    rcases List.eq_nil_or_concat signature with rfl | ⟨der, sighashType, rfl⟩
    · exact absurd fits.1 (by decide)
    · rw [List.concat_eq_append, List.length_append, List.length_singleton] at fits
      rw [List.concat_eq_append]
      exact ⟨(der, sighashType),
        ⟨⟨Nat.le_of_succ_le_succ fits.1, Nat.le_of_succ_le_succ fits.2⟩, keyFits⟩, rfl⟩

/-- A refused script is malformed, or its second push is no key. -/
theorem UnlockingScript.decode_eq_error {script : Bytes} {fault : Fault}
    (refused : decode script = .error fault) :
    (fault.code = .parse ∧
      ∀ parts, pushesDecoder.runAll .trailingAfterKey script ≠ .ok parts) ∨
    (fault.code = .publicKeyEncoding ∧ ∃ signature pushed,
      pushesDecoder.runAll .trailingAfterKey script = .ok (signature, pushed) ∧
        ∀ compressed, ¬ PublicKey.Encoding compressed pushed) := by
  rw [decode] at refused
  cases split : pushesDecoder.runAll .trailingAfterKey script with
  | error other =>
      rw [split] at refused
      cases refused
      left
      exact ⟨code_of_pushes_refused split, fun parts impossible => by cases impossible⟩
  | ok parts =>
      obtain ⟨⟨der, sighashType⟩, pushed⟩ := parts
      rw [split] at refused
      right
      cases classified : PublicKey.ofBytes pushed with
      | ok key =>
          simp only [bind, Except.bind, classified] at refused
          cases refused
      | error reason =>
          simp only [bind, Except.bind, classified] at refused
          cases refused
          have concerns := PublicKey.concernsKey_of_ofBytes classified
          refine ⟨?_, _, _, rfl, PublicKey.ofBytes_eq_error classified⟩
          rw [Fault.code, CredentialFault.code, if_pos concerns]

/-- The scripts that are read are two pushes and no more, a signature with its type and a key, and
they can be written again from their parts. All other scripts are malformed, except for those whose
only defect is the key. -/
theorem UnlockingScript.decode_grammar (script : Bytes) :
    (∀ der sighashType key, decode script = .ok ⟨der, sighashType, key⟩ ↔
      (1 ≤ der.length ∧ der.length ≤ 74) ∧ PublicKey.Encoding key.isCompressed key.bytes ∧
        script = UInt8.ofNat (der.length + 1) :: der ++
          sighashType :: UInt8.ofNat key.bytes.length :: key.bytes) ∧
    (∀ der sighashType compressed pushed, 1 ≤ der.length ∧ der.length ≤ 74 →
      PublicKey.Encoding compressed pushed →
      script = UInt8.ofNat (der.length + 1) :: der ++
        sighashType :: UInt8.ofNat pushed.length :: pushed →
      ∃ key : PublicKey, key.bytes = pushed ∧ key.isCompressed = compressed ∧
        decode script = .ok ⟨der, sighashType, key⟩) ∧
    (∀ parts, decode script = .ok parts →
      parts.encode = script ∧ ∀ other, decode other = .ok parts → other = script) ∧
    (∀ fault, decode script = .error fault →
      (fault.code = .publicKeyEncoding ↔ ∃ signature pushed : Bytes,
        (2 ≤ signature.length ∧ signature.length ≤ 75) ∧
          (1 ≤ pushed.length ∧ pushed.length ≤ 75) ∧
          script = encodePush signature ++ encodePush pushed ∧
          ∀ compressed, ¬ PublicKey.Encoding compressed pushed) ∧
      (fault.code ≠ .publicKeyEncoding → fault.code = .parse)) ∧
    FaultCode.publicKeyEncoding.label = "TX_ERR_PUBKEY_ENCODING" ∧
    FaultCode.parse.label = "TX_ERR_PARSE" := by
  have form (parts : UnlockingScript) : parts.encode =
      UInt8.ofNat (parts.der.length + 1) :: parts.der ++
        parts.sighashType :: UInt8.ofNat parts.key.bytes.length :: parts.key.bytes := by
    simp [encode, encodePush]
  refine ⟨?_, ?_, ?_, ?_, rfl, rfl⟩
  · intro der sighashType key
    rw [decode_eq_ok, form]
    exact and_congr_right fun _ => (and_iff_right key.encoding_bytes).symm
  · intro der sighashType compressed pushed fits encoding written
    obtain ⟨key, rfl, kind⟩ := PublicKey.exists_of_encoding encoding
    have whole : script = encode ⟨der, sighashType, key⟩ := written.trans (form ⟨_, _, _⟩).symm
    exact ⟨key, rfl, kind, decode_eq_ok.mpr ⟨fits, whole⟩⟩
  · intro parts accepted
    have written := (decode_eq_ok.mp accepted).2
    exact ⟨written.symm, fun other same => (decode_eq_ok.mp same).2.trans written.symm⟩
  · intro fault refused
    rcases decode_eq_error refused with
      ⟨malformed, unsplit⟩ | ⟨unsupported, signature, pushed, split, noKey⟩
    · have parse : fault.code ≠ .publicKeyEncoding := by
        rw [malformed]
        decide
      refine ⟨⟨fun unsupported => absurd unsupported parse, fun pushes => ?_⟩, fun _ => malformed⟩
      obtain ⟨signature, pushed, fits, keyFits, written, -⟩ := pushes
      obtain ⟨parts, split⟩ := pushes_eq_ok.mpr ⟨signature, fits, keyFits, written⟩
      exact absurd split (unsplit _)
    · obtain ⟨written, fits, keyFits, same⟩ := pushes_eq_ok.mp ⟨signature, split⟩
      exact ⟨⟨fun _ => ⟨written, pushed, fits, keyFits, same, noKey⟩, fun _ => unsupported⟩,
        fun other => absurd unsupported other⟩

/-- The second push of this script has the size of a key and the tag of none. -/
theorem decode_unsupportedKey :
    ∃ fault, UnlockingScript.decode
        (encodePush [0x30, 0x01] ++ encodePush (List.replicate 33 0x05)) = .error fault ∧
      fault.code = .publicKeyEncoding := by
  have refused : UnlockingScript.decode
      (encodePush [0x30, 0x01] ++ encodePush (List.replicate 33 0x05)) =
      .error (.credential (.unsupportedKey 33 (some 0x05))) := rfl
  have unclassified : PublicKey.ofBytes (List.replicate 33 0x05) =
      .error (.unsupportedKey 33 (some 0x05)) := rfl
  have codes := (UnlockingScript.decode_grammar _).2.2.2.1 _ refused
  exact ⟨_, refused, codes.1.mpr ⟨[0x30, 0x01], List.replicate 33 0x05, by decide, by decide, rfl,
    PublicKey.ofBytes_eq_error unclassified⟩⟩

end CoinSpend
