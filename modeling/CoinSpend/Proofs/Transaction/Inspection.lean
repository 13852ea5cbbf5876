/-
This file states that the inspection of a transaction shows everything but the labels of its inputs.
-/

import CoinSpend.Proofs.Json.Indented
import CoinSpend.Proofs.Transaction.Commitment
import CoinSpend.Transaction.Summary

namespace CoinSpend

open Json

theorem toLittleEndian_inj {width left right : Nat} (leftFits : left < 256 ^ width)
    (rightFits : right < 256 ^ width) :
    toLittleEndian width left = toLittleEndian width right ↔ left = right := by
  constructor
  · intro same
    have values := congrArg ofLittleEndian same
    rwa [ofLittleEndian_toLittleEndian, ofLittleEndian_toLittleEndian, Nat.mod_eq_of_lt leftFits,
      Nat.mod_eq_of_lt rightFits] at values
  · intro same
    rw [same]

theorem toLittleEndian_word_inj {left right : UInt32} :
    toLittleEndian 4 left.toNat = toLittleEndian 4 right.toNat ↔ left = right := by
  rw [toLittleEndian_inj left.toNat_lt right.toNat_lt, UInt32.toNat_inj]

theorem toBigEndian_word_inj {left right : UInt32} :
    toBigEndian 4 left.toNat = toBigEndian 4 right.toNat ↔ left = right := by
  rw [toBigEndian, toBigEndian, List.reverse_inj, toLittleEndian_word_inj]

/-- The layout of an input shows everything but its label. -/
theorem Input.json_inj {left right : Input} :
    left.json = right.json ↔ left.withId 0 = right.withId 0 := by
  constructor
  · intro same
    have members := record_inj.mp same
    simp only [separated_cons_cons] at members
    obtain ⟨hash, afterHash⟩ := named_append_inj (by rfl) members
    obtain ⟨index, afterIndex⟩ := named_append_inj (by rfl) afterHash
    obtain ⟨script, sequence⟩ := named_append_inj (by rfl) afterIndex
    have hashes := Octets.ext (hexText_inj.mp hash)
    have indices := toBigEndian_word_inj.mp (hexText_inj.mp index)
    have scripts := hexText_inj.mp script
    have sequences := toLittleEndian_word_inj.mp (hexText_inj.mp (named_inj.mp sequence))
    rw [withId, withId, hashes, indices, scripts, sequences]
  · intro same
    have shown := congrArg Input.json same
    exact shown

theorem Output.json_inj {left right : Output} : left.json = right.json ↔ left = right := by
  constructor
  · intro same
    have members := record_inj.mp same
    simp only [separated_cons_cons] at members
    obtain ⟨amount, script⟩ := named_append_inj (by rfl) members
    have amounts := UInt64.toNat_inj.mp (number_inj.mp amount)
    have scripts := hexText_inj.mp (named_inj.mp script)
    cases left
    cases right
    simp_all
  · intro same
    rw [same]

theorem Input.map_json_uniform (inputs : List Input) : Uniform 6 (inputs.map Input.json) := by
  intro block member
  obtain ⟨input, -, rfl⟩ := List.mem_map.mp member
  exact ⟨rfl, _, rfl⟩

theorem Output.map_json_uniform (outputs : List Output) : Uniform 4 (outputs.map Output.json) := by
  intro block member
  obtain ⟨output, -, rfl⟩ := List.mem_map.mp member
  exact ⟨rfl, _, rfl⟩

/-- Inputs that are laid out alike differ in their labels only. -/
theorem labelled_eq_of_map_json {left right : List Input}
    (same : left.map Input.json = right.map Input.json) : labelled left = labelled right := by
  have sizes : left.length = right.length := by simpa using congrArg List.length same
  apply List.ext_getElem (by simpa using sizes)
  intro index leftInside rightInside
  rw [length_labelled] at leftInside rightInside
  have entry := congrArg (fun blocks => blocks[index]?) same
  simp only [List.getElem?_map, List.getElem?_eq_getElem leftInside,
    List.getElem?_eq_getElem rightInside, Option.map_some, Option.some.injEq] at entry
  rw [getElem_labelled leftInside, getElem_labelled rightInside]
  exact congrArg (fun input => input.withId index) (Input.json_inj.mp entry)

theorem Transaction.json_inj {left right : Transaction} (same : left.json = right.json) :
    left.relabelled = right.relabelled := by
  have members := record_inj.mp same
  simp only [separated_cons_cons] at members
  obtain ⟨version, afterVersion⟩ := named_append_inj (by rfl) members
  obtain ⟨inputs, afterInputs⟩ := named_list_append_inj (Input.map_json_uniform _)
    (Input.map_json_uniform _) afterVersion
  obtain ⟨outputs, locktime⟩ := named_list_append_inj (Output.map_json_uniform _)
    (Output.map_json_uniform _) afterInputs
  have versions := UInt32.toNat_inj.mp (number_inj.mp version)
  have labels := labelled_eq_of_map_json inputs
  have outputLists := (List.map_inj_right fun _ _ => Output.json_inj.mp).mp outputs
  have locktimes := UInt32.toNat_inj.mp (number_inj.mp (named_inj.mp locktime))
  rw [relabelled, relabelled, versions, labels, outputLists, locktimes]

theorem Input.json_unbroken (input : Input) : input.json.Unbroken := by
  apply record_unbroken
  simp only [List.mem_cons, List.not_mem_nil, or_false, forall_eq_or_imp, forall_eq]
  exact ⟨named_unbroken (by decide) (hexText_unbroken _),
    named_unbroken (by decide) (hexText_unbroken _),
    named_unbroken (by decide) (hexText_unbroken _),
    named_unbroken (by decide) (hexText_unbroken _)⟩

theorem Output.json_unbroken (output : Output) : output.json.Unbroken := by
  apply record_unbroken
  simp only [List.mem_cons, List.not_mem_nil, or_false, forall_eq_or_imp, forall_eq]
  exact ⟨named_unbroken (by decide) (number_unbroken _),
    named_unbroken (by decide) (hexText_unbroken _)⟩

theorem Transaction.json_unbroken (transaction : Transaction) : transaction.json.Unbroken := by
  have inputs : (list (transaction.inputs.map Input.json)).Unbroken :=
    list_unbroken (List.forall_mem_map.mpr fun input _ => input.json_unbroken)
  have outputs : (list (transaction.outputs.map Output.json)).Unbroken :=
    list_unbroken (List.forall_mem_map.mpr fun output _ => output.json_unbroken)
  apply record_unbroken
  simp only [List.mem_cons, List.not_mem_nil, or_false, forall_eq_or_imp, forall_eq]
  exact ⟨named_unbroken (by decide) (number_unbroken _), named_unbroken (by decide) inputs,
    named_unbroken (by decide) outputs, named_unbroken (by decide) (number_unbroken _)⟩

/-- Two transactions look alike exactly when they differ in their labels only. -/
theorem Transaction.inspect_eq_iff {left right : Transaction} :
    left.inspect = right.inspect ↔ left.relabelled = right.relabelled := by
  constructor
  · intro same
    exact json_inj (render_inj left.json_unbroken right.json_unbroken (List.cons_ne_nil _ _)
      (List.cons_ne_nil _ _) same)
  · intro same
    rw [← left.inspect_relabelled, same, inspect_relabelled]

/-- Two transactions are written alike exactly when they differ in their labels only. -/
theorem Transaction.encode_eq_iff {left right : Transaction} (leftDeclarable : left.Declarable)
    (rightDeclarable : right.Declarable) :
    left.encode = right.encode ↔ left.relabelled = right.relabelled := by
  constructor
  · intro same
    have padded : left.encode ++ [] = right.encode ++ [] := by rw [same]
    exact (encode_append_inj leftDeclarable rightDeclarable padded).1
  · intro same
    rw [← left.encode_relabelled, same, encode_relabelled]

/-- Only a collision of the digest gives one identifier to transactions with different bytes. -/
theorem Transaction.txid_eq_iff {left right : Transaction} :
    left.txid = right.txid ↔
      Digest.doubleSha256 left.encode = Digest.doubleSha256 right.encode := by
  rw [txid, txid, Octets.reverse_inj]

/-- The inspection of a transaction and its bytes tell the same transactions apart: those that
differ in more than the labels of their inputs. The identifier is the digest of the bytes turned
around, so it tells apart what the digest does. -/
theorem Transaction.inspect_faithful {left right : Transaction} (leftDeclarable : left.Declarable)
    (rightDeclarable : right.Declarable) :
    (left.inspect = right.inspect ↔ left.encode = right.encode) ∧
    (left.encode = right.encode ↔ left.relabelled = right.relabelled) ∧
    (left.inspect = right.inspect → left.txid = right.txid) ∧
    (left.txid = right.txid ↔
      Digest.doubleSha256 left.encode = Digest.doubleSha256 right.encode) ∧
    left.txid.bytes = (Digest.doubleSha256 left.encode).bytes.reverse := by
  have written := encode_eq_iff leftDeclarable rightDeclarable
  have shown := inspect_eq_iff.trans written.symm
  refine ⟨shown, written, ?_, txid_eq_iff, rfl⟩
  intro same
  rw [txid_eq_iff, shown.mp same]

/-- Fresh labels change nothing that is shown or written; emptied scripts change the listing, the
bytes and the identifier. -/
theorem twinSpend_inspect :
    twinSpend ≠ twinSpend.relabelled ∧ twinSpend.inspect = twinSpend.relabelled.inspect ∧
      twinSpend.txid = twinSpend.relabelled.txid ∧
      twinSpend.inspect ≠ strippedTwinSpend.inspect ∧
      twinSpend.txid ≠ strippedTwinSpend.txid := by
  have relabelledDeclarable : twinSpend.relabelled.Declarable :=
    Transaction.measures_relabelled twinSpend_declarable
  obtain ⟨shown, -, named, -, -⟩ :=
    Transaction.inspect_faithful twinSpend_declarable relabelledDeclarable
  obtain ⟨stripped, -, -, digests, -⟩ :=
    Transaction.inspect_faithful twinSpend_declarable strippedTwinSpend_declarable
  have alike := shown.mpr twinSpend.encode_relabelled.symm
  refine ⟨by decide +kernel, alike, named alike, ?_, ?_⟩
  · intro same
    have sizes := congrArg List.length (stripped.mp same)
    revert sizes
    decide +kernel
  · intro same
    have collision := digests.mp same
    revert collision
    decide +kernel

end CoinSpend
