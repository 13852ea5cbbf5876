/-
This file states that limits refuse exactly the transactions that exceed them, at the first
declaration that does, and have no other effect.
-/

import CoinSpend.Proofs.Outcome
import CoinSpend.Proofs.Transaction.RoundTrip

namespace CoinSpend

/-- A declaration is a count or a length that is written in front of what it measures. -/
structure Declaration where
  quantity : Quantity
  value : Nat

def Limits.Allows (limits : Limits) (declaration : Declaration) : Prop :=
  declaration.value ≤ limits.cap declaration.quantity

instance (limits : Limits) (declaration : Declaration) : Decidable (limits.Allows declaration) :=
  inferInstanceAs (Decidable (_ ≤ _))

/-- The fault names the declared value and the limit that it exceeds. -/
def Limits.excess (limits : Limits) (declaration : Declaration) : Fault :=
  .exceedsLimit declaration.quantity declaration.value (limits.cap declaration.quantity)

/-- The declarations are compared with their limits one after the other. -/
def Limits.settle (limits : Limits) : List Declaration → Except Fault Unit
  | [] => .ok ()
  | declaration :: rest =>
      if limits.Allows declaration then limits.settle rest
      else .error (limits.excess declaration)

theorem Limits.settle_eq_ok {limits : Limits} {declared : List Declaration} :
    limits.settle declared = .ok () ↔ ∀ declaration ∈ declared, limits.Allows declaration := by
  induction declared with
  | nil => simp [settle]
  | cons declaration rest ih =>
      by_cases allowed : limits.Allows declaration
      · simp [settle, allowed, ih]
      · simp [settle, allowed]

/-- The first declaration above its limit decides. -/
theorem Limits.settle_eq_error {limits : Limits} {declared : List Declaration} {fault : Fault}
    (settled : limits.settle declared = .error fault) :
    ∃ front first rest, declared = front ++ first :: rest ∧
      (∀ earlier ∈ front, limits.Allows earlier) ∧ ¬ limits.Allows first ∧
      fault = limits.excess first := by
  induction declared with
  | nil => cases settled
  | cons declaration rest ih =>
      by_cases allowed : limits.Allows declaration
      · rw [settle, if_pos allowed] at settled
        obtain ⟨front, first, back, rfl, before, above, named⟩ := ih settled
        exact ⟨declaration :: front, first, back, rfl, List.forall_mem_cons.mpr ⟨allowed, before⟩,
          above, named⟩
      · rw [settle, if_neg allowed] at settled
        cases settled
        exact ⟨[], declaration, rest, rfl, by simp, allowed, rfl⟩

/-- What is declared later is settled only when nothing before it exceeds its limit. -/
theorem Limits.settle_append (limits : Limits) (front rest : List Declaration) :
    limits.settle (front ++ rest) = (limits.settle front).bind fun _ => limits.settle rest := by
  induction front with
  | nil => rfl
  | cons declaration front ih =>
      rw [List.cons_append, settle, settle]
      by_cases allowed : limits.Allows declaration
      · rw [if_pos allowed, if_pos allowed, ih]
      · rw [if_neg allowed, if_neg allowed]
        rfl

/-- A check settles one declaration and reads nothing. -/
theorem Limits.check_run (limits : Limits) (quantity : Quantity) (value : Nat) (cursor : Cursor) :
    (limits.check quantity value).run cursor =
      (limits.settle [⟨quantity, value⟩]).map fun _ => ((), cursor) := by
  rw [check, settle, settle]
  by_cases allowed : limits.Allows ⟨quantity, value⟩
  · have below : ¬ limits.cap quantity < value := Nat.not_lt_of_le allowed
    rw [if_neg below, if_pos allowed]
    rfl
  · have above : limits.cap quantity < value := Nat.lt_of_not_le allowed
    rw [if_pos above, if_neg allowed]
    rfl

/-- A strict decoder cuts off the loose one where a declaration exceeds its limit: it settles what
the loose one accepts, and it refuses what the loose one refuses, at the latest there. -/
structure Limits.Cuts {A : Type} (limits : Limits) (strict loose : Decoder A)
    (declares : A → List Declaration → Prop) : Prop where
  accepted : ∀ {cursor next : Cursor} {value : A}, loose.run cursor = .ok (value, next) →
    ∃ declared, declares value declared ∧
      strict.run cursor = (limits.settle declared).map fun _ => (value, next)
  refused : ∀ {cursor : Cursor} {fault : Fault}, loose.run cursor = .error fault →
    strict.run cursor = .error fault ∨ ∃ first, strict.run cursor = .error (limits.excess first)

section

variable {A B : Type} {limits looser : Limits}

/-- A decoder without limits declares nothing and is its own strict form. -/
theorem Limits.Cuts.plain (decoder : Decoder A) :
    limits.Cuts decoder decoder fun value declared =>
      declared = [] ∧ ∃ cursor next, decoder.run cursor = .ok (value, next) where
  accepted read := ⟨[], ⟨rfl, _, _, read⟩, read⟩
  refused failed := .inl failed

theorem Limits.Cuts.done {declares : A → List Declaration → Prop} {value : A}
    (nothing : declares value []) : limits.Cuts (.done value) (.done value) declares where
  accepted read := by
    cases read
    exact ⟨[], nothing, rfl⟩
  refused failed := by cases failed

theorem Limits.Cuts.fail {declares : A → List Declaration → Prop} (fault : Fault) :
    limits.Cuts (.fail fault) (.fail fault) declares where
  accepted read := by cases read
  refused failed := .inl failed

/-- Joined decoders declare in the order in which they read. -/
theorem Limits.Cuts.bind {strict loose : Decoder A} {strictAfter looseAfter : A → Decoder B}
    {declares : A → List Declaration → Prop} {whole : B → List Declaration → Prop}
    (first : limits.Cuts strict loose declares)
    (second : ∀ value front, declares value front →
      limits.Cuts (strictAfter value) (looseAfter value) fun result rest =>
        whole result (front ++ rest)) :
    limits.Cuts (strict.bind strictAfter) (loose.bind looseAfter) whole where
  accepted read := by
    obtain ⟨value, middle, firstRead, secondRead⟩ := Decoder.bind_run_ok.mp read
    obtain ⟨front, declaresFront, firstSettled⟩ := first.accepted firstRead
    obtain ⟨rest, declaresAll, secondSettled⟩ :=
      (second value front declaresFront).accepted secondRead
    refine ⟨front ++ rest, declaresAll, ?_⟩
    rw [Decoder.run_bind, firstSettled, settle_append]
    cases limits.settle front with
    | error fault => rfl
    | ok _ => exact secondSettled
  refused failed := by
    rcases Decoder.bind_run_error.mp failed with firstFailed | ⟨value, middle, firstRead, failed⟩
    · rcases first.refused firstFailed with same | ⟨declaration, stopped⟩
      · exact .inl (Decoder.bind_run_error.mpr (.inl same))
      · exact .inr ⟨declaration, Decoder.bind_run_error.mpr (.inl stopped)⟩
    · obtain ⟨front, declaresFront, firstSettled⟩ := first.accepted firstRead
      rw [Decoder.run_bind, firstSettled]
      -- The strict decoder can stop at a limit that the loose one passed.
      cases settled : limits.settle front with
      | error fault =>
          obtain ⟨-, declaration, -, -, -, -, rfl⟩ := settle_eq_error settled
          exact .inr ⟨declaration, rfl⟩
      | ok _ => exact (second value front declaresFront).refused failed

/-- What is read without limits adds no declaration to what follows. -/
theorem Limits.Cuts.after (decoder : Decoder A) {strictAfter looseAfter : A → Decoder B}
    {declares : B → List Declaration → Prop}
    (second : ∀ value, (∃ cursor next, decoder.run cursor = .ok (value, next)) →
      limits.Cuts (strictAfter value) (looseAfter value) declares) :
    limits.Cuts (decoder.bind strictAfter) (decoder.bind looseAfter) declares := by
  apply (plain decoder).bind
  intro value front read
  obtain ⟨rfl, read⟩ := read
  exact second value read

theorem Limits.Cuts.imp {strict loose : Decoder A} {declares others : A → List Declaration → Prop}
    (cuts : limits.Cuts strict loose declares)
    (implies : ∀ value declared, declares value declared → others value declared) :
    limits.Cuts strict loose others where
  accepted read := by
    obtain ⟨declared, declares, settled⟩ := cuts.accepted read
    exact ⟨declared, implies _ _ declares, settled⟩
  refused failed := cuts.refused failed

/-- The items behind the collected ones declare one after the other. -/
theorem Limits.Cuts.manyFrom {strict loose : Nat → Decoder A} {declaration : A → Declaration}
    (items : ∀ position, limits.Cuts (strict position) (loose position) fun value declared =>
      declared = [declaration value]) (count position : Nat) (collected : List A) :
    limits.Cuts (Decoder.manyFrom strict count position collected)
      (Decoder.manyFrom loose count position collected) fun values declared =>
        ∃ fresh, values = collected.reverse ++ fresh ∧ fresh.length = count ∧
          declared = fresh.map declaration := by
  induction count generalizing position collected with
  | zero => exact .done ⟨[], by simp⟩
  | succ count ih =>
      refine (items position).bind ?_
      rintro value _ rfl
      refine (ih (position + 1) (value :: collected)).imp ?_
      rintro _ _ ⟨fresh, rfl, sized, rfl⟩
      exact ⟨value :: fresh, by simp, by simp [sized], rfl⟩

theorem Limits.Cuts.many {strict loose : Nat → Decoder A} {declaration : A → Declaration}
    (items : ∀ position, limits.Cuts (strict position) (loose position) fun value declared =>
      declared = [declaration value]) (count : Nat) :
    limits.Cuts (Decoder.many count strict) (Decoder.many count loose) fun values declared =>
      values.length = count ∧ declared = values.map declaration := by
  refine (manyFrom items count 0 []).imp ?_
  rintro _ _ ⟨fresh, rfl, sized, rfl⟩
  exact ⟨sized, rfl⟩

/-- Looser limits admit whatever these limits admit. -/
def Limits.Tightens (limits looser : Limits) : Prop :=
  ∀ quantity value, limits.Admits quantity value → looser.Admits quantity value

theorem Limits.tightens_unlimited (limits : Limits) : limits.Tightens .unlimited :=
  fun _ _ admitted => unlimited_admits.mpr admitted.1

theorem Limits.check_cuts (tightens : limits.Tightens looser) (quantity : Quantity) {value : Nat}
    (declarable : value ≤ maxDeclared) :
    limits.Cuts (limits.check quantity value) (looser.check quantity value) fun _ declared =>
      declared = [⟨quantity, value⟩] where
  accepted := by
    intro cursor next result read
    obtain ⟨-, rfl⟩ := check_run_ok.mp read
    exact ⟨_, rfl, check_run limits quantity value _⟩
  refused := by
    intro cursor fault failed
    have above : ¬ limits.Allows ⟨quantity, value⟩ := by
      intro allowed
      have admitted := (tightens quantity value ⟨declarable, allowed⟩).2
      have passed : (looser.check quantity value).run cursor = .ok ((), cursor) :=
        check_run_ok.mpr ⟨admitted, rfl⟩
      rw [passed] at failed
      cases failed
    refine .inr ⟨⟨quantity, value⟩, ?_⟩
    rw [check_run, settle, if_neg above]
    rfl

/-- A count or a length that is read can be declared. -/
theorem CompactSize.le_maxDeclared {value : Nat}
    (read : ∃ cursor next, CompactSize.decoder.run cursor = .ok (value, next)) :
    value ≤ maxDeclared := by
  obtain ⟨cursor, next, success⟩ := read
  exact (CompactSize.decoder_inverts.run_ok.mp success).1

theorem Limits.declared_cuts (tightens : limits.Tightens looser) (quantity : Quantity) :
    limits.Cuts (limits.declared quantity) (looser.declared quantity) fun value declared =>
      declared = [⟨quantity, value⟩] := by
  apply Cuts.after CompactSize.decoder
  intro value read
  refine (check_cuts tightens quantity (CompactSize.le_maxDeclared read)).bind ?_
  rintro _ declared rfl
  exact .done rfl

def Input.declaration (input : Input) : Declaration :=
  ⟨.unlockingScriptLength, input.unlockingScript.length⟩

def Output.declaration (output : Output) : Declaration :=
  ⟨.lockingScriptLength, output.lockingScript.length⟩

/-- These are the counts and the lengths in the order of the wire. -/
def Transaction.declarations (transaction : Transaction) : List Declaration :=
  ⟨.inputCount, transaction.inputs.length⟩ :: transaction.inputs.map Input.declaration ++
    ⟨.outputCount, transaction.outputs.length⟩ :: transaction.outputs.map Output.declaration

/-- A block has the length that was read in front of it. -/
theorem length_of_block {field : Field} {size : Nat} {bytes : Bytes}
    (read : ∃ cursor next, (Decoder.block field size).run cursor = .ok (bytes, next)) :
    bytes.length = size := by
  obtain ⟨cursor, next, success⟩ := read
  exact ((Decoder.block_inverts field size).run_ok.mp success).1

theorem Input.decoder_cuts (tightens : limits.Tightens looser) (count position : Nat) :
    limits.Cuts (Input.decoder limits count position) (Input.decoder looser count position)
      fun input declared => declared = [input.declaration] := by
  apply Limits.Cuts.after (decodeHash position count)
  intro hash _
  apply Limits.Cuts.after Decoder.word32
  intro outputIndex _
  refine (Limits.declared_cuts tightens .unlockingScriptLength).bind ?_
  rintro length _ rfl
  apply Limits.Cuts.after (Decoder.block .unlockingScript length)
  intro script read
  apply Limits.Cuts.after Decoder.word32
  intro sequence _
  exact .done (by simp [declaration, length_of_block read])

theorem Output.decoder_cuts (tightens : limits.Tightens looser) :
    limits.Cuts (Output.decoder limits) (Output.decoder looser) fun output declared =>
      declared = [output.declaration] := by
  apply Limits.Cuts.after Decoder.word64
  intro amount _
  refine (Limits.declared_cuts tightens .lockingScriptLength).bind ?_
  rintro length _ rfl
  apply Limits.Cuts.after (Decoder.block .lockingScript length)
  intro script read
  exact .done (by simp [declaration, length_of_block read])

/-- The refusal of a count of zero is no matter of limits. -/
theorem Transaction.decodeOutputCount_cuts (tightens : limits.Tightens looser) :
    limits.Cuts (decodeOutputCount limits) (decodeOutputCount looser) fun count declared =>
      declared = [⟨.outputCount, count⟩] := by
  apply Limits.Cuts.after CompactSize.decoder
  intro count read
  by_cases zero : count = 0
  · rw [if_pos zero, if_pos zero]
    exact .fail .noOutputs
  · rw [if_neg zero, if_neg zero]
    refine (Limits.check_cuts tightens .outputCount (CompactSize.le_maxDeclared read)).bind ?_
    rintro _ declared rfl
    exact .done rfl

theorem Transaction.decoder_cuts (tightens : limits.Tightens looser) :
    limits.Cuts (decoder limits) (decoder looser) fun transaction declared =>
      declared = transaction.declarations := by
  apply Limits.Cuts.after Decoder.word32
  intro version _
  refine (Limits.declared_cuts tightens .inputCount).bind ?_
  rintro inputCount _ rfl
  refine (Limits.Cuts.many (fun position => Input.decoder_cuts tightens inputCount position)
    inputCount).bind ?_
  rintro inputs _ ⟨rfl, rfl⟩
  refine (decodeOutputCount_cuts tightens).bind ?_
  rintro outputCount _ rfl
  refine (Limits.Cuts.many (fun _ => Output.decoder_cuts tightens) outputCount).bind ?_
  rintro outputs _ ⟨rfl, rfl⟩
  apply Limits.Cuts.after Decoder.word32
  intro locktime _
  exact .done (by simp [declarations])

/-- A strict decoder that has to use up all bytes settles what the loose one accepts. -/
theorem Limits.Cuts.runAll_ok {strict loose : Decoder A}
    {declares : A → List Declaration → Prop} (cuts : limits.Cuts strict loose declares)
    {excess : Nat → Fault} {bytes : Bytes} {value : A}
    (accepted : loose.runAll excess bytes = .ok value) :
    ∃ declared, declares value declared ∧
      strict.runAll excess bytes = (limits.settle declared).map fun _ => value := by
  rw [Decoder.runAll] at accepted
  split at accepted
  · cases accepted
  · next result cursor ran =>
      split at accepted
      · next nothing =>
          obtain ⟨declared, declaresAll, settled⟩ := cuts.accepted ran
          cases accepted
          refine ⟨declared, declaresAll, ?_⟩
          rw [Decoder.runAll, settled]
          cases limits.settle declared with
          | error fault => rfl
          | ok _ => exact if_pos nothing
      · cases accepted

/-- Bytes that are left over are left over for both, unless a limit stops the strict decoder. -/
theorem Limits.Cuts.runAll_error {strict loose : Decoder A}
    {declares : A → List Declaration → Prop} (cuts : limits.Cuts strict loose declares)
    {excess : Nat → Fault} {bytes : Bytes} {fault : Fault}
    (refused : loose.runAll excess bytes = .error fault) :
    strict.runAll excess bytes = .error fault ∨
      ∃ first, strict.runAll excess bytes = .error (limits.excess first) := by
  rw [Decoder.runAll] at refused
  split at refused
  · next failed =>
      cases refused
      rw [Decoder.runAll]
      rcases cuts.refused failed with same | ⟨first, stopped⟩
      · exact .inl (by rw [same])
      · exact .inr ⟨first, by rw [stopped]⟩
  · next result cursor ran =>
      obtain ⟨declared, -, settled⟩ := cuts.accepted ran
      rw [Decoder.runAll, settled]
      cases outcome : limits.settle declared with
      | error other =>
          obtain ⟨-, first, -, -, -, -, rfl⟩ := settle_eq_error outcome
          exact .inr ⟨first, rfl⟩
      | ok _ => exact .inl refused

theorem Transaction.decodeWithin_of_ok (tightens : limits.Tightens looser) {bytes : Bytes}
    {transaction : Transaction} (accepted : decodeWithin looser bytes = .ok transaction) :
    decodeWithin limits bytes =
      (limits.settle transaction.declarations).map fun _ => transaction := by
  obtain ⟨declared, rfl, settled⟩ := (decoder_cuts tightens).runAll_ok accepted
  exact settled

theorem Transaction.decodeWithin_of_error (tightens : limits.Tightens looser) {bytes : Bytes}
    {fault : Fault} (refused : decodeWithin looser bytes = .error fault) :
    decodeWithin limits bytes = .error fault ∨
      ∃ first, decodeWithin limits bytes = .error (limits.excess first) :=
  (decoder_cuts tightens).runAll_error refused

end

/-- No count and no length of the transaction exceeds its limit. -/
structure Transaction.Within (transaction : Transaction) (limits : Limits) : Prop where
  inputs : transaction.inputs.length ≤ limits.maxInputs
  unlockingScripts : ∀ input ∈ transaction.inputs,
    input.unlockingScript.length ≤ limits.maxScriptBytes
  outputs : transaction.outputs.length ≤ limits.maxOutputs
  lockingScripts : ∀ output ∈ transaction.outputs,
    output.lockingScript.length ≤ limits.maxScriptBytes

theorem Transaction.within_iff {transaction : Transaction} {limits : Limits} :
    transaction.Within limits ↔
      ∀ declaration ∈ transaction.declarations, limits.Allows declaration := by
  simp only [declarations, List.cons_append, List.forall_mem_cons, List.forall_mem_append,
    List.forall_mem_map]
  exact ⟨fun within => ⟨within.inputs, within.unlockingScripts, within.outputs,
      within.lockingScripts⟩,
    fun ⟨inputs, unlockingScripts, outputs, lockingScripts⟩ =>
      ⟨inputs, unlockingScripts, outputs, lockingScripts⟩⟩

/-- Each of these limits is at most the other one. -/
structure Limits.Below (limits looser : Limits) : Prop where
  inputs : limits.maxInputs ≤ looser.maxInputs
  outputs : limits.maxOutputs ≤ looser.maxOutputs
  scriptBytes : limits.maxScriptBytes ≤ looser.maxScriptBytes

theorem Limits.Below.tightens {limits looser : Limits} (below : limits.Below looser) :
    limits.Tightens looser := by
  intro quantity value admitted
  have caps : limits.cap quantity ≤ looser.cap quantity := by
    cases quantity with
    | inputCount => exact below.inputs
    | outputCount => exact below.outputs
    | unlockingScriptLength => exact below.scriptBytes
    | lockingScriptLength => exact below.scriptBytes
  exact ⟨admitted.1, Nat.le_trans admitted.2 caps⟩

/-- What fails for another reason than a limit fails in the same way under looser limits. -/
theorem Transaction.decodeWithin_looser {limits looser : Limits}
    (tightens : limits.Tightens looser) {bytes : Bytes} {fault : Fault}
    (refused : decodeWithin limits bytes = .error fault)
    (unlimited : ∀ declaration, fault ≠ limits.excess declaration) :
    decodeWithin looser bytes = .error fault := by
  cases loose : decodeWithin looser bytes with
  | ok transaction =>
      rw [decodeWithin_of_ok tightens loose] at refused
      cases settled : limits.settle transaction.declarations with
      | error other =>
          obtain ⟨-, first, -, -, -, -, rfl⟩ := Limits.settle_eq_error settled
          rw [settled] at refused
          cases refused
          exact absurd rfl (unlimited first)
      | ok _ =>
          rw [settled] at refused
          cases refused
  | error other =>
      rcases decodeWithin_of_error tightens loose with same | ⟨first, stopped⟩
      · rw [← same, refused]
      · rw [refused, Except.error.injEq] at stopped
        exact absurd stopped (unlimited first)

/-- Limits let through exactly the transactions within them, report the first declaration above its
limit in the order of the wire, and have no say in any other fault. -/
theorem Transaction.decodeWithin_cutoff (limits : Limits) (bytes : Bytes) :
    (∀ transaction, decodeWithin limits bytes = .ok transaction ↔
      decode bytes = .ok transaction ∧ transaction.Within limits) ∧
    (∀ transaction, decode bytes = .ok transaction → ¬ transaction.Within limits →
      ∃ front first rest, transaction.declarations = front ++ first :: rest ∧
        (∀ earlier ∈ front, earlier.value ≤ limits.cap earlier.quantity) ∧
        limits.cap first.quantity < first.value ∧
        decodeWithin limits bytes =
          .error (.exceedsLimit first.quantity first.value (limits.cap first.quantity))) ∧
    (∀ fault, decodeWithin limits bytes = .error fault →
      (∀ quantity value cap, fault ≠ .exceedsLimit quantity value cap) →
      decode bytes = .error fault ∧
        ∀ looser, limits.Below looser → decodeWithin looser bytes = .error fault) ∧
    (∀ quantity value cap,
      (Fault.exceedsLimit quantity value cap).code.label = "TX_ERR_PARSE" ∧
      (Fault.exceedsLimit quantity value cap).message =
        quantity.label ++ s!" {value} exceeds limit {cap}") ∧
    Quantity.inputCount.label = "input_count" ∧
    Quantity.unlockingScriptLength.label = "script_sig_len" ∧
    Quantity.outputCount.label = "output_count" ∧
    Quantity.lockingScriptLength.label = "script_len" := by
  have unlimited := limits.tightens_unlimited
  refine ⟨fun transaction => ⟨fun accepted => ?_, fun parts => ?_⟩, ?_, ?_,
    fun quantity value cap => ⟨rfl, rfl⟩, rfl, rfl, rfl, rfl⟩
  · cases loose : decode bytes with
    | ok other =>
        rw [decodeWithin_of_ok unlimited loose] at accepted
        obtain ⟨_, settled, rfl⟩ := map_eq_ok.mp accepted
        exact ⟨rfl, within_iff.mpr (Limits.settle_eq_ok.mp settled)⟩
    | error fault =>
        rcases decodeWithin_of_error unlimited loose with same | ⟨first, stopped⟩
        · rw [accepted] at same
          cases same
        · rw [accepted] at stopped
          cases stopped
  · obtain ⟨accepted, within⟩ := parts
    rw [decodeWithin_of_ok unlimited accepted, Limits.settle_eq_ok.mpr (within_iff.mp within)]
    rfl
  · intro transaction accepted exceeds
    have strict := decodeWithin_of_ok unlimited accepted
    cases settled : limits.settle transaction.declarations with
    | ok _ => exact absurd (within_iff.mpr (Limits.settle_eq_ok.mp settled)) exceeds
    | error fault =>
        obtain ⟨front, first, rest, parts, before, above, rfl⟩ := Limits.settle_eq_error settled
        rw [settled] at strict
        exact ⟨front, first, rest, parts, before, Nat.lt_of_not_le above, strict⟩
  · intro fault refused otherReason
    have reason : ∀ declaration, fault ≠ limits.excess declaration :=
      fun declaration => otherReason _ _ _
    exact ⟨decodeWithin_looser unlimited refused reason,
      fun looser below => decodeWithin_looser below.tightens refused reason⟩

theorem twinSpend_within : twinSpend.relabelled.Within ⟨2, 1, 253⟩ where
  inputs := by decide
  unlockingScripts := by decide +kernel
  outputs := by decide
  lockingScripts := by decide

theorem twinSpend_declarations :
    twinSpend.relabelled.declarations =
      [⟨.inputCount, 2⟩, ⟨.unlockingScriptLength, 0⟩, ⟨.unlockingScriptLength, 253⟩,
        ⟨.outputCount, 1⟩, ⟨.lockingScriptLength, 1⟩] := by
  simp [Transaction.declarations, Transaction.relabelled, labelled, twinSpend, Input.declaration,
    Input.withId, Output.declaration, -List.reduceReplicate]

/-- The longer script is as long as the limit allows; a limit of one byte less refuses it. -/
theorem twinSpend_cutoff :
    Transaction.decodeWithin ⟨2, 1, 253⟩ twinSpend.encode = .ok twinSpend.relabelled ∧
      Transaction.decodeWithin ⟨2, 1, 252⟩ twinSpend.encode =
        .error (.exceedsLimit .unlockingScriptLength 253 252) ∧
      (Fault.exceedsLimit .unlockingScriptLength 253 252).message =
        "script_sig_len 253 exceeds limit 252" := by
  have read := Transaction.decode_encode_relabelled twinSpend_declarable (by decide)
  have exceeds : ¬ twinSpend.relabelled.Within ⟨2, 1, 252⟩ :=
    fun within => absurd within.unlockingScripts (by decide +kernel)
  obtain ⟨front, first, rest, parts, before, above, refused⟩ :=
    (Transaction.decodeWithin_cutoff ⟨2, 1, 252⟩ _).2.1 _ read exceeds
  -- The first declaration above its limit is found by a search from the front.
  have found : twinSpend.relabelled.declarations.find?
      (fun declaration => decide (Limits.cap ⟨2, 1, 252⟩ declaration.quantity < declaration.value))
        = some first := by
    rw [List.find?_eq_some_iff_append]
    exact ⟨decide_eq_true above, front, rest, parts, by simpa using before⟩
  rw [twinSpend_declarations] at found
  obtain rfl : ⟨.unlockingScriptLength, 253⟩ = first := Option.some.inj found
  exact ⟨((Transaction.decodeWithin_cutoff _ _).1 _).mpr ⟨read, twinSpend_within⟩, refused, rfl⟩

end CoinSpend
