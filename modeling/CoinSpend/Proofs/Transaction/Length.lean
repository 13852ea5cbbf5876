/-
This file states that the length known in advance is that of the written bytes, and how long the
bytes to sign are.
-/

import CoinSpend.Proofs.CompactSize.Stream
import CoinSpend.Proofs.ScriptCode
import CoinSpend.Proofs.Transaction.Commitment
import CoinSpend.Proofs.UnlockingScript

namespace CoinSpend

@[simp] theorem totalLength_nil {A : Type} (length : A → Nat) : totalLength length [] = 0 := rfl

@[simp] theorem totalLength_cons {A : Type} (length : A → Nat) (first : A) (rest : List A) :
    totalLength length (first :: rest) = length first + totalLength length rest := by
  have shifted (items : List A) (start : Nat) :
      items.foldl (fun total item => total + length item) start =
        start + totalLength length items := by
    unfold totalLength
    induction items generalizing start with
    | nil => rfl
    | cons item items ih =>
        simp only [List.foldl_cons]
        rw [ih (start + length item), ih (0 + length item)]
        omega
  change rest.foldl _ (0 + length first) = _
  rw [shifted, Nat.zero_add]

/-- The written items are as long as their lengths say together. -/
theorem length_flatMap_eq_totalLength {A : Type} {write : A → Bytes} {length : A → Nat}
    (exact : ∀ item, (write item).length = length item) (items : List A) :
    (items.flatMap write).length = totalLength length items := by
  induction items with
  | nil => rfl
  | cons item items ih =>
      rw [List.flatMap_cons, List.length_append, exact, ih, totalLength_cons]

/-- A script takes its own bytes and those of its length. -/
theorem length_encodeScript_eq (script : Bytes) :
    (encodeScript script).length = CompactSize.size script.length + script.length := by
  rw [encodeScript, List.length_append, CompactSize.length_encode]

theorem Input.length_encode (input : Input) : input.encode.length = input.encodedLength := by
  simp only [encode, encodeOutpoint, List.length_append, Octets.length_eq, length_toLittleEndian,
    length_encodeScript_eq, encodedLength]
  omega

theorem Output.length_encode (output : Output) : output.encode.length = output.encodedLength := by
  simp only [encode, List.length_append, length_toLittleEndian, length_encodeScript_eq,
    encodedLength]
  omega

theorem Transaction.length_encode (transaction : Transaction) :
    transaction.encode.length = transaction.encodedLength := by
  simp only [encode, encodeHead, encodeTail, List.length_append, length_toLittleEndian,
    CompactSize.length_encode, length_flatMap_eq_totalLength Input.length_encode,
    length_flatMap_eq_totalLength Output.length_encode, encodedLength]
  omega

/-- An input loses these bytes when its script is emptied: only the length stays, as one byte. -/
def Input.emptiedBytes (input : Input) : Nat :=
  CompactSize.size input.unlockingScript.length - 1 + input.unlockingScript.length

theorem Input.encodedLength_emptied (input : Input) :
    (input.withScript []).encodedLength + input.emptiedBytes = input.encodedLength := by
  have positive := CompactSize.size_pos input.unlockingScript.length
  have single : CompactSize.size 0 = 1 := rfl
  simp only [encodedLength, emptiedBytes, withScript, List.length_nil, single]
  omega

/-- A script takes the place of another one. -/
theorem Input.encodedLength_withScript (input : Input) (script : Bytes) :
    (input.withScript script).encodedLength + (encodeScript input.unlockingScript).length =
      input.encodedLength + (encodeScript script).length := by
  simp only [length_encodeScript_eq, encodedLength, withScript]
  omega

/-- Every script of the inputs is emptied. -/
theorem totalLength_emptied (inputs : List Input) :
    totalLength Input.encodedLength (inputs.map fun input => input.withScript []) +
      totalLength Input.emptiedBytes inputs = totalLength Input.encodedLength inputs := by
  induction inputs with
  | nil => rfl
  | cons first rest ih =>
      have emptied := first.encodedLength_emptied
      simp only [List.map_cons, totalLength_cons]
      omega

/-- The signed input trades its script for the script code, and all others lose theirs. -/
theorem totalLength_signed (inputs : List Input) (position : Nat)
    (inside : position < inputs.length) (script : Bytes) :
    totalLength Input.encodedLength (inputs.mapIdx fun index input =>
        input.withScript (if index = position then script else [])) +
      (encodeScript inputs[position].unlockingScript).length +
      totalLength Input.emptiedBytes (inputs.eraseIdx position) =
    totalLength Input.encodedLength inputs + (encodeScript script).length := by
  induction inputs generalizing position with
  | nil => simp at inside
  | cons first rest ih =>
      cases position with
      | zero =>
          have behind : (rest.mapIdx fun index input =>
              input.withScript (if index + 1 = 0 then script else [])) =
              rest.map fun input => input.withScript [] := by
            apply List.ext_getElem <;> simp
          have emptied := totalLength_emptied rest
          have replaced := first.encodedLength_withScript script
          simp only [List.mapIdx_cons, if_true, behind, totalLength_cons, List.getElem_cons_zero,
            List.eraseIdx_cons_zero]
          omega
      | succ position =>
          have others := ih position (by simpa using inside)
          have emptied := first.encodedLength_emptied
          simp only [List.mapIdx_cons, Nat.add_right_cancel_iff, Nat.zero_ne_add_one, if_false,
            totalLength_cons, List.getElem_cons_succ, List.eraseIdx_cons_succ]
          omega

/-- The preimage is the encoding with the script code in place of the signed script, one byte in
place of every other script, and four bytes of type behind it. -/
theorem Transaction.length_preimage {transaction : Transaction} {position : Nat}
    (inside : position < transaction.inputs.length) (script : Bytes) :
    ∃ bytes, transaction.preimage position script = .ok bytes ∧
      bytes.length + (encodeScript transaction.inputs[position].unlockingScript).length +
        totalLength Input.emptiedBytes (transaction.inputs.eraseIdx position) =
      transaction.encodedLength + (encodeScript script).length + 4 := by
  refine ⟨_, preimage_eq inside script, ?_⟩
  have signed := totalLength_signed transaction.inputs position inside script
  simp only [List.length_append, length_encode, length_toLittleEndian, encodedLength, signedForm,
    List.length_mapIdx]
  omega

/-- All inputs together lose the same bytes, whichever of them is left out and counted in full. -/
theorem totalLength_emptiedBytes_eraseIdx (inputs : List Input) (position : Nat)
    (inside : position < inputs.length) :
    (encodeScript inputs[position].unlockingScript).length +
        totalLength Input.emptiedBytes (inputs.eraseIdx position) =
      totalLength Input.emptiedBytes inputs + 1 := by
  induction inputs generalizing position with
  | nil => simp at inside
  | cons first rest ih =>
      cases position with
      | zero =>
          have positive := CompactSize.size_pos first.unlockingScript.length
          simp only [List.getElem_cons_zero, List.eraseIdx_cons_zero, totalLength_cons,
            length_encodeScript_eq, Input.emptiedBytes]
          omega
      | succ position =>
          have others := ih position (by simpa using inside)
          simp only [List.getElem_cons_succ, List.eraseIdx_cons_succ, totalLength_cons]
          omega

/-- The length of the bytes to sign is the same for every position. -/
theorem Transaction.length_signingPreimage {transaction : Transaction} {position : Nat}
    {bytes : Bytes} (signing : transaction.signingPreimage position = .ok bytes) :
    bytes.length + totalLength Input.emptiedBytes transaction.inputs =
      transaction.encodedLength + 29 := by
  obtain ⟨hash, written⟩ := preimage_of_signingPreimage signing
  have inside := inside_of_preimage written
  obtain ⟨other, rewritten, balance⟩ := length_preimage inside (payToKeyHash hash)
  obtain rfl : bytes = other := Except.ok.inj (written.symm.trans rewritten)
  have emptied := totalLength_emptiedBytes_eraseIdx transaction.inputs position inside
  have slot : (encodeScript (payToKeyHash hash)).length = 26 := by
    rw [length_encodeScript_eq, length_payToKeyHash]
    rfl
  omega

/-- The computed length is the real one, the preimage differs from the encoding by its scripts and
by the type, and all positions sign equally many bytes. -/
theorem Transaction.lengths_agree (transaction : Transaction) :
    transaction.encode.length = transaction.encodedLength ∧
    (∀ (position : Nat) (inside : position < transaction.inputs.length) (script : Bytes),
      ∃ bytes, transaction.preimage position script = .ok bytes ∧
        bytes.length +
          (CompactSize.size transaction.inputs[position].unlockingScript.length +
            transaction.inputs[position].unlockingScript.length) +
          totalLength (fun input => CompactSize.size input.unlockingScript.length - 1 +
            input.unlockingScript.length) (transaction.inputs.eraseIdx position) =
        transaction.encodedLength + CompactSize.size script.length + script.length + 4) ∧
    ∀ (first second : Nat) (firstBytes secondBytes : Bytes),
      transaction.signingPreimage first = .ok firstBytes →
      transaction.signingPreimage second = .ok secondBytes →
      firstBytes.length = secondBytes.length := by
  refine ⟨transaction.length_encode, ?_, ?_⟩
  · intro position inside script
    obtain ⟨bytes, written, balance⟩ := length_preimage inside script
    simp only [length_encodeScript_eq] at balance
    refine ⟨bytes, written, ?_⟩
    change _ + totalLength Input.emptiedBytes _ = _
    omega
  · intro first second firstBytes secondBytes atFirst atSecond
    have firstLength := length_signingPreimage atFirst
    have secondLength := length_signingPreimage atSecond
    omega

/-- The keys of the two inputs are pushed in different sizes, and there is no output. -/
def unevenSpend : Transaction where
  version := 1
  inputs := [PublicKey.compressed false (Octets.bigEndian 32 1),
    .uncompressed (Octets.bigEndian 32 1) (Octets.bigEndian 32 2)].map fun key =>
      ⟨Octets.bigEndian 32 5, 0, (UnlockingScript.mk [0x30] 0x01 key).encode, 0xffffffff, 0⟩
  outputs := []
  locktime := 0

theorem unevenSpend_signs :
    (∃ bytes, unevenSpend.signingPreimage 0 = .ok bytes) ∧
      ∃ bytes, unevenSpend.signingPreimage 1 = .ok bytes := by
  have split (key : PublicKey) : UnlockingScript.decode
      (UnlockingScript.mk [0x30] 0x01 key).encode = .ok ⟨[0x30], 0x01, key⟩ :=
    UnlockingScript.decode_eq_ok.mpr ⟨by simp, rfl⟩
  have first : unevenSpend.signingPreimage 0 = _ :=
    Transaction.signingPreimage_eq rfl (split _)
  have second : unevenSpend.signingPreimage 1 = _ :=
    Transaction.signingPreimage_eq rfl (split _)
  rw [first, second]
  exact ⟨⟨_, Transaction.preimage_eq (by decide) _⟩, _, Transaction.preimage_eq (by decide) _⟩

/-- The longer script makes room for the script code, and both inputs sign equally many bytes. -/
theorem unevenSpend_lengths :
    (∃ bytes, unevenSpend.preimage 1 [0x51] = .ok bytes ∧
        bytes.length + 70 + 37 = unevenSpend.encodedLength + 6) ∧
      ∃ first second, unevenSpend.signingPreimage 0 = .ok first ∧
        unevenSpend.signingPreimage 1 = .ok second ∧ first.length = second.length := by
  obtain ⟨-, balance, same⟩ := unevenSpend.lengths_agree
  obtain ⟨⟨first, atFirst⟩, second, atSecond⟩ := unevenSpend_signs
  exact ⟨balance 1 (by decide) [0x51], first, second, atFirst, atSecond,
    same 0 1 first second atFirst atSecond⟩

end CoinSpend
