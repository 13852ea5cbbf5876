/-
This file states what a verification returns, what its recorder holds and what it logs.
-/

import CoinSpend.Verification.Log

namespace CoinSpend

/-- All inputs in front of a position are accepted. -/
def Transaction.AcceptedBelow (transaction : Transaction) (source : ScriptCodeSource)
    (position : Nat) : Prop :=
  ∀ earlier < position, transaction.verdict earlier source = .ok ()

/-- An input fails first when it fails and all inputs in front of it are accepted. -/
structure Transaction.FailsFirst (transaction : Transaction) (source : ScriptCodeSource)
    (position : Nat) (failure : Failure) : Prop where
  inside : position < transaction.inputs.length
  failed : transaction.verdict position source = .error failure
  before : transaction.AcceptedBelow source position

/-- Either all inputs are accepted or one of them fails first. -/
theorem Transaction.accepted_or_failsFirst (transaction : Transaction)
    (source : ScriptCodeSource) {count : Nat} (within : count ≤ transaction.inputs.length) :
    transaction.AcceptedBelow source count ∨
      ∃ position failure, transaction.FailsFirst source position failure := by
  induction count with
  | zero => exact .inl fun earlier inside => absurd inside (Nat.not_lt_zero earlier)
  | succ count ih =>
      rcases ih (by omega) with accepted | failing
      · cases judged : transaction.verdict count source with
        | ok verified =>
            left
            intro earlier inside
            by_cases last : earlier = count
            · rw [last, judged]
            · exact accepted earlier (by omega)
        | error failure => exact .inr ⟨count, failure, by omega, judged, accepted⟩
      · exact .inr failing

/-- The recorder notes accepted inputs in front of the rest, one event for each. -/
theorem Transaction.verifyFrom_append {transaction : Transaction} {source : ScriptCodeSource}
    {front rest : List Input} {position : Nat} {events : List Event}
    (accepted : ∀ index < front.length,
      transaction.verdict (position + index) source = .ok ()) :
    transaction.verifyFrom source .recorder position (front ++ rest) events =
      transaction.verifyFrom source .recorder (position + front.length) rest
        (events ++ (List.range' position front.length).map .verified) := by
  -- The front shrinks while the position and the events move on.
  induction front generalizing position events with
  | nil => simp
  | cons input front ih =>
      have now : transaction.verdict position source = .ok () := accepted 0 (by simp)
      have later : ∀ index < front.length,
          transaction.verdict (position + 1 + index) source = .ok () := by
        intro index inside
        rw [show position + 1 + index = position + (index + 1) by omega]
        exact accepted (index + 1) (by simpa using inside)
      rw [List.cons_append, verifyFrom, now]
      change transaction.verifyFrom source .recorder (position + 1) (front ++ rest)
        (events ++ [.verified position]) = _
      rw [ih later, List.length_cons, List.range'_succ, List.map_cons, List.append_assoc,
        List.singleton_append, show position + 1 + front.length = position + (front.length + 1)
          by omega]

/-- Without a failure every input has its event. -/
theorem Transaction.verify_of_accepted {transaction : Transaction} {source : ScriptCodeSource}
    (accepted : transaction.AcceptedBelow source transaction.inputs.length)
    (events : List Event) :
    transaction.verify source .recorder events = (.ok transaction.inputs.length,
      events ++ (List.range transaction.inputs.length).map .verified) := by
  have passed : transaction.verifyFrom source .recorder 0 (transaction.inputs ++ []) events = _ :=
    verifyFrom_append fun index inside => (Nat.zero_add index).symm ▸ accepted index inside
  rw [List.append_nil, Nat.zero_add, ← List.range_eq_range'] at passed
  exact passed

/-- The first failure has the last event. -/
theorem Transaction.verify_of_failsFirst {transaction : Transaction} {source : ScriptCodeSource}
    {position : Nat} {failure : Failure}
    (fails : transaction.FailsFirst source position failure) (events : List Event) :
    transaction.verify source .recorder events = (.error ⟨position, failure⟩,
      events ++ (List.range position).map .verified ++ [.rejected position failure]) := by
  have inside := fails.inside
  have size : (transaction.inputs.take position).length = position := by
    rw [List.length_take]
    omega
  have passed : transaction.verifyFrom source .recorder 0
      (transaction.inputs.take position ++ transaction.inputs.drop position) events = _ :=
    verifyFrom_append fun index below =>
      (Nat.zero_add index).symm ▸ fails.before index (by omega)
  rw [List.take_append_drop, size, Nat.zero_add, ← List.range_eq_range',
    List.drop_eq_getElem_cons inside, verifyFrom, fails.failed] at passed
  exact passed

/-- One observer follows another when it keeps a relation between their states, whatever the two
inputs at a position are. -/
structure Observer.Follows {A B : Type} (leader : Observer A) (follower : Observer B)
    (inputs others : List Input) (related : A → B → Prop) : Prop where
  verified : ∀ {position : Nat} {input other : Input} {state : A} {shadow : B},
    inputs[position]? = some input → others[position]? = some other → related state shadow →
    related (leader.verified state position input) (follower.verified shadow position other)
  rejected : ∀ {position : Nat} {input other : Input} {state : A} {shadow : B}
    (failure : Failure), inputs[position]? = some input → others[position]? = some other →
    related state shadow →
    related (leader.rejected state position input failure)
      (follower.rejected shadow position other failure)

/-- The head of a suffix stands at the position where the suffix starts. -/
theorem head_of_drop {A : Type} {items rest : List A} {position : Nat} {item : A}
    (suffix : items.drop position = item :: rest) :
    items[position]? = some item ∧ items.drop (position + 1) = rest := by
  constructor
  · rw [← Nat.add_zero position, ← List.getElem?_drop, suffix, List.getElem?_cons_zero]
  · rw [← List.drop_drop, suffix, List.drop_one, List.tail_cons]

/-- Two runs with the same verdicts return the same, and their observers stay related. -/
theorem Transaction.verifyFrom_related {A B : Type} {left right : Transaction}
    {leftSource rightSource : ScriptCodeSource} {leader : Observer A} {follower : Observer B}
    {related : A → B → Prop}
    (verdicts : ∀ position, left.verdict position leftSource = right.verdict position rightSource)
    (follows : leader.Follows follower left.inputs right.inputs related)
    {position : Nat} {rest others : List Input} {state : A} {shadow : B}
    (leftRest : left.inputs.drop position = rest)
    (rightRest : right.inputs.drop position = others) (sizes : rest.length = others.length)
    (start : related state shadow) :
    (left.verifyFrom leftSource leader position rest state).1 =
        (right.verifyFrom rightSource follower position others shadow).1 ∧
      related (left.verifyFrom leftSource leader position rest state).2
        (right.verifyFrom rightSource follower position others shadow).2 := by
  -- The inputs that are left are the suffix of both lists at the current position, so that the
  -- relation is asked for the inputs at that very position.
  induction rest generalizing position others state shadow with
  | nil =>
      have nothing : others = [] := List.eq_nil_of_length_eq_zero sizes.symm
      subst nothing
      exact ⟨rfl, start⟩
  | cons input rest ih =>
      obtain ⟨other, others, rfl⟩ := List.exists_cons_of_length_eq_add_one sizes.symm
      obtain ⟨found, leftNext⟩ := head_of_drop leftRest
      obtain ⟨otherFound, rightNext⟩ := head_of_drop rightRest
      rw [verifyFrom, verifyFrom, ← verdicts position]
      cases left.verdict position leftSource with
      | error failure => exact ⟨rfl, follows.rejected failure found otherFound start⟩
      | ok verified =>
          exact ih leftNext rightNext (Nat.succ.inj sizes)
            (follows.verified found otherFound start)

theorem Transaction.verify_related {A B : Type} {left right : Transaction}
    {leftSource rightSource : ScriptCodeSource} {leader : Observer A} {follower : Observer B}
    {related : A → B → Prop} (sizes : left.inputs.length = right.inputs.length)
    (verdicts : ∀ position, left.verdict position leftSource = right.verdict position rightSource)
    (follows : leader.Follows follower left.inputs right.inputs related)
    {state : A} {shadow : B} (start : related state shadow) :
    (left.verify leftSource leader state).1 = (right.verify rightSource follower shadow).1 ∧
      related (left.verify leftSource leader state).2
        (right.verify rightSource follower shadow).2 :=
  verifyFrom_related verdicts follows List.drop_zero List.drop_zero sizes start

/-- An observer follows itself where it sees the same inputs. -/
theorem Observer.follows_self {A : Type} (observer : Observer A) (inputs : List Input) :
    observer.Follows observer inputs inputs Eq where
  verified := by
    intro position input other state shadow found otherFound same
    rw [same, Option.some.inj (found.symm.trans otherFound)]
  rejected := by
    intro position input other state shadow failure found otherFound same
    rw [same, Option.some.inj (found.symm.trans otherFound)]

/-- No observer has a say in the result. -/
theorem Transaction.verify_result {A B : Type} (transaction : Transaction)
    (source : ScriptCodeSource) (observer : Observer A) (other : Observer B) (state : A)
    (shadow : B) :
    (transaction.verify source observer state).1 = (transaction.verify source other shadow).1 := by
  have follows : observer.Follows other transaction.inputs transaction.inputs
      (fun _ _ => True) := ⟨fun _ _ _ => trivial, fun _ _ _ _ => trivial⟩
  exact (verify_related rfl (fun _ => rfl) follows trivial).1

/-- This is the log entry of an event; a script is shown unless the input is malformed. -/
def Transaction.entryOf? (transaction : Transaction) : Event → Option LogEntry
  | .verified position => do
      let input ← transaction.inputs[position]?
      return ⟨.debug, position, [("script_sig", Hex.encode input.unlockingScript),
        ("message", "signature verified")]⟩
  | .rejected position .badSignature => do
      let input ← transaction.inputs[position]?
      return ⟨.info, position, [("script_sig", Hex.encode input.unlockingScript),
        ("message", "bad signature")]⟩
  | .rejected position (.malformed fault) =>
      some ⟨.info, position, [("code", fault.code.label), ("reason", fault.message),
        ("message", "malformed input")]⟩

/-- The logger writes the entries of the events that the recorder holds. -/
theorem Transaction.logger_follows_recorder (transaction : Transaction) :
    Observer.logger.Follows Observer.recorder transaction.inputs transaction.inputs
      fun entries events => entries.map some = events.map transaction.entryOf? where
  verified := by
    intro position input other entries events found otherFound image
    show (entries ++ [_]).map some = (events ++ [_]).map _
    rw [List.map_append, List.map_append, image]
    simp [entryOf?, found, LogEntry.verified]
  rejected := by
    intro position input other entries events failure found otherFound image
    show (entries ++ [_]).map some = (events ++ [_]).map _
    rw [List.map_append, List.map_append, image]
    cases failure with
    | badSignature => simp [entryOf?, found, LogEntry.rejected]
    | malformed fault => simp [entryOf?, LogEntry.rejected]

theorem Transaction.verify_eq_ok_iff {transaction : Transaction} {source : ScriptCodeSource}
    {events : List Event} {count : Nat} :
    (transaction.verify source .recorder events).1 = .ok count ↔
      count = transaction.inputs.length ∧
        transaction.AcceptedBelow source transaction.inputs.length := by
  rcases transaction.accepted_or_failsFirst source (Nat.le_refl _) with
    accepted | ⟨position, failure, fails⟩
  · rw [verify_of_accepted accepted, Except.ok.injEq]
    exact ⟨fun same => ⟨same.symm, accepted⟩, fun parts => parts.1.symm⟩
  · rw [verify_of_failsFirst fails]
    constructor
    · intro impossible
      cases impossible
    · rintro ⟨-, accepted⟩
      have verified := accepted position fails.inside
      rw [fails.failed] at verified
      cases verified

theorem Transaction.verify_eq_error_iff {transaction : Transaction} {source : ScriptCodeSource}
    {events : List Event} {position : Nat} {failure : Failure} :
    (transaction.verify source .recorder events).1 = .error ⟨position, failure⟩ ↔
      transaction.FailsFirst source position failure := by
  constructor
  · intro rejected
    rcases transaction.accepted_or_failsFirst source (Nat.le_refl _) with
      accepted | ⟨first, kind, fails⟩
    · rw [verify_of_accepted accepted] at rejected
      cases rejected
    · rw [verify_of_failsFirst fails] at rejected
      cases rejected
      exact fails
  · intro fails
    rw [verify_of_failsFirst fails]

theorem Transaction.isVerified_iff (transaction : Transaction) (events : List Event) :
    transaction.isVerified = true ↔
      ∃ count, (transaction.verify .derived .recorder events).1 = .ok count := by
  rw [isVerified, verifyLogged, transaction.verify_result .derived .logger .recorder [] events]
  cases (transaction.verify .derived .recorder events).1 with
  | ok count => exact ⟨fun _ => ⟨count, rfl⟩, fun _ => rfl⟩
  | error rejection =>
      constructor
      · intro verified
        cases verified
      · rintro ⟨count, impossible⟩
        cases impossible

/-- A verification judges the inputs in order and stops at the first that fails. The recorder adds
one event for each judged input, every other observer sees the same result, and the log is the image
of what a fresh recorder holds. -/
theorem Transaction.verify_in_order (transaction : Transaction) (source : ScriptCodeSource)
    (events : List Event) :
    (∀ count, (transaction.verify source .recorder events).1 = .ok count ↔
      count = transaction.inputs.length ∧
        transaction.AcceptedBelow source transaction.inputs.length) ∧
    (∀ count, (transaction.verify source .recorder events).1 = .ok count →
      (transaction.verify source .recorder events).2 =
        events ++ (List.range count).map .verified) ∧
    (∀ position failure,
      (transaction.verify source .recorder events).1 = .error ⟨position, failure⟩ ↔
        transaction.FailsFirst source position failure) ∧
    (∀ position failure,
      (transaction.verify source .recorder events).1 = .error ⟨position, failure⟩ →
        (transaction.verify source .recorder events).2 =
          events ++ (List.range position).map .verified ++ [.rejected position failure]) ∧
    (∀ {State : Type} (observer : Observer State) (state : State),
      (transaction.verify source observer state).1 =
        (transaction.verify source .recorder events).1) ∧
    (transaction.isVerified = true ↔
      ∃ count, (transaction.verify .derived .recorder events).1 = .ok count) ∧
    transaction.verifyLogged.2.map some =
      (transaction.verify .derived .recorder []).2.map transaction.entryOf? := by
  refine ⟨fun count => verify_eq_ok_iff, ?_, fun position failure => verify_eq_error_iff, ?_,
    fun observer state => verify_result _ _ _ _ _ _, transaction.isVerified_iff events, ?_⟩
  · intro count verified
    obtain ⟨rfl, accepted⟩ := verify_eq_ok_iff.mp verified
    rw [verify_of_accepted accepted]
  · intro position failure rejected
    rw [verify_of_failsFirst (verify_eq_error_iff.mp rejected)]
  · exact (verify_related rfl (fun _ => rfl) transaction.logger_follows_recorder rfl).2

end CoinSpend
