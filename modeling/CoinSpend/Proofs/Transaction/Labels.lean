/-
This file states what labelling does to the inputs of a transaction.
-/

import CoinSpend.Transaction.Inspection
import CoinSpend.Transaction.Summary
import CoinSpend.UnlockingScript

namespace CoinSpend

theorem Input.withId_eq_self_iff {input : Input} {id : Nat} :
    input.withId id = input ↔ input.id = id := by
  apply Iff.intro
  · intro same
    rw [← same]
    rfl
  · intro same
    rw [withId, ← same]

/-- The label is not written. -/
@[simp] theorem Input.encode_withId (input : Input) (id : Nat) :
    (input.withId id).encode = input.encode := rfl

@[simp] theorem length_labelled (inputs : List Input) :
    (labelled inputs).length = inputs.length := by
  rw [labelled, List.length_mapIdx]

theorem getElem_labelled {inputs : List Input} {index : Nat} (inside : index < inputs.length)
    (labelledInside : index < (labelled inputs).length) :
    (labelled inputs)[index] = inputs[index].withId index := by
  simp only [labelled, List.getElem_mapIdx]

/-- Inputs are labelled already when every one carries its position. -/
theorem labelled_eq_self_iff {inputs : List Input} :
    labelled inputs = inputs ↔
      ∀ index (inside : index < inputs.length), inputs[index].id = index := by
  apply Iff.intro
  · intro same index inside
    have labels := getElem_labelled inside (by rwa [length_labelled])
    simp only [same] at labels
    exact Input.withId_eq_self_iff.mp labels.symm
  · intro positions
    apply List.ext_getElem (length_labelled inputs)
    intro index _ inside
    rw [getElem_labelled inside]
    exact Input.withId_eq_self_iff.mpr (positions index inside)

theorem labelled_labelled (inputs : List Input) : labelled (labelled inputs) = labelled inputs := by
  rw [labelled_eq_self_iff]
  intro index inside
  rw [getElem_labelled (by rwa [length_labelled] at inside)]
  rfl

/-- Inputs are labelled already when their labels count the positions. -/
theorem labelled_eq_self_iff_map_id {inputs : List Input} :
    labelled inputs = inputs ↔ inputs.map Input.id = List.range inputs.length := by
  rw [labelled_eq_self_iff]
  apply Iff.intro
  · intro positions
    apply List.ext_getElem (by simp)
    intro index inside _
    have position := positions index (by rwa [List.length_map] at inside)
    rw [List.getElem_map, List.getElem_range, position]
  · intro counted index inside
    have entry := congrArg (fun labels => labels[index]?) counted
    simpa [inside] using entry

/-- What does not look at labels does not see that they are fresh. -/
theorem map_labelled {A : Type} {view : Input → A}
    (blind : ∀ input id, view (input.withId id) = view input) (inputs : List Input) :
    (labelled inputs).map view = inputs.map view := by
  apply List.ext_getElem
  · simp
  · intro index labelledInside inside
    rw [List.length_map] at labelledInside inside
    rw [List.getElem_map, List.getElem_map, getElem_labelled inside, blind]

/-- Labelling does not change what is written. -/
theorem flatMap_encode_labelled (inputs : List Input) :
    (labelled inputs).flatMap Input.encode = inputs.flatMap Input.encode := by
  rw [List.flatMap_def, List.flatMap_def, map_labelled Input.encode_withId]

/-- This transaction carries fresh labels and is otherwise the same. -/
def Transaction.relabelled (transaction : Transaction) : Transaction :=
  { transaction with inputs := labelled transaction.inputs }

/-- The labels of a transaction are not written. -/
@[simp] theorem Transaction.encode_relabelled (transaction : Transaction) :
    transaction.relabelled.encode = transaction.encode := by
  simp only [encode, encodeHead, encodeTail, relabelled, length_labelled, flatMap_encode_labelled]

theorem totalLength_eq_foldl_map {A : Type} (length : A → Nat) (items : List A) :
    totalLength length items = (items.map length).foldl (· + ·) 0 := by
  rw [totalLength, List.foldl_map]

@[simp] theorem Transaction.encodedLength_relabelled (transaction : Transaction) :
    transaction.relabelled.encodedLength = transaction.encodedLength := by
  have blind : ∀ (input : Input) (id : Nat),
      (input.withId id).encodedLength = input.encodedLength := fun _ _ => rfl
  simp only [encodedLength, relabelled, length_labelled, totalLength_eq_foldl_map,
    map_labelled blind]

/-- The labels of a transaction are not shown. -/
@[simp] theorem Transaction.inspect_relabelled (transaction : Transaction) :
    transaction.relabelled.inspect = transaction.inspect := by
  have blind : ∀ (input : Input) (id : Nat), (input.withId id).json = input.json :=
    fun _ _ => rfl
  simp only [inspect, json, relabelled, map_labelled blind]

/-- The keys are read without the labels. -/
@[simp] theorem Transaction.publicKeys_relabelled (transaction : Transaction) :
    transaction.relabelled.publicKeys = transaction.publicKeys := by
  have blind : ∀ (input : Input) (id : Nat), (input.withId id).publicKey = input.publicKey :=
    fun _ _ => rfl
  have keys := congrArg (List.mapM id) (map_labelled blind transaction.inputs)
  rw [List.mapM_map, List.mapM_map] at keys
  exact keys

end CoinSpend
