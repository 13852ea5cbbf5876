/-
This file executes decoders on all of the bytes and an offset of 64 bits, with a trap for each slice
that lies outside, and states that a reader within its bytes is never trapped.
-/

import CoinSpend.Proofs.Decoder

namespace CoinSpend

/-- A trap stops an execution on the spot: an offset gets too large for 64 bits, a slice lies
outside of the bytes, or a difference would be negative. -/
inductive Trap where
  | overflow (offset size : Nat)
  | outOfBounds (start stop : Nat)
  | underflow (minuend subtrahend : Nat)
deriving DecidableEq

/-- The stop of a slice is computed before it is compared with the end of the bytes. -/
def slice (bytes : Bytes) (start size : Nat) : Except Trap (Octets size) :=
  if maxDeclared < start + size then .error (.overflow start size)
  else if inside : start + size ≤ bytes.length then
    .ok ⟨(bytes.drop start).take size, by rw [List.length_take, List.length_drop]; omega⟩
  else .error (.outOfBounds start (start + size))

/-- A request asks for a block at the offset of the reader. A granted one goes on to the slice. -/
structure Request where
  offset : Nat
  size : Nat
  granted : Bool
deriving DecidableEq

/-- A refused request does not move the reader. -/
def Request.width (request : Request) : Nat := if request.granted then request.size else 0

/-- The reader stands here after the request. -/
def Request.stop (request : Request) : Nat := request.offset + request.width

/-- The requests of an execution moved its reader by this number of bytes. -/
def consumed : List Request → Nat
  | [] => 0
  | request :: rest => request.width + consumed rest

/-- Every request starts where the one in front of it has stopped. -/
def Chained : (start : Nat) → List Request → Prop
  | _, [] => True
  | start, request :: rest => request.offset = start ∧ Chained request.stop rest

/-- An execution makes requests and ends in a trap, with a fault, or with a value and an offset. -/
structure Execution (A : Type) where
  requests : List Request
  outcome : Except Trap (Except Fault (A × Nat))

def Execution.after {A : Type} (execution : Execution A) (request : Request) : Execution A :=
  ⟨request :: execution.requests, execution.outcome⟩

/-- A block is refused when it is larger than what is left. Beyond the end nothing is left, and that
is enough for a block of no bytes: only the slice tells it apart. -/
def Decoder.execute {A : Type} (bytes : Bytes) : Decoder A → (offset : Nat) → Execution A
  | .done value, offset => ⟨[], .ok (.ok (value, offset))⟩
  | .fail fault, _ => ⟨[], .ok (.error fault)⟩
  | .locate next, offset => (next offset).execute bytes offset
  | .take size shortage next, offset =>
      if bytes.length - offset < size then
        ⟨[⟨offset, size, false⟩], .ok (.error (shortage offset (bytes.length - offset)))⟩
      else
        match slice bytes offset size with
        | .error trap => ⟨[⟨offset, size, true⟩], .error trap⟩
        | .ok octets =>
            ((next octets).execute bytes (offset + size)).after ⟨offset, size, true⟩

/-- The bytes behind a value are counted; there must be none. -/
def Execution.conclude {A : Type} (execution : Execution A) (bytes : Bytes)
    (excess : Nat → Fault) : Except Trap (Except Fault A) :=
  match execution.outcome with
  | .error trap => .error trap
  | .ok (.error fault) => .ok (.error fault)
  | .ok (.ok (value, stop)) =>
      .ok (if bytes.length - stop = 0 then .ok value else .error (excess (bytes.length - stop)))

section

variable {A : Type} {bytes : Bytes} {offset size : Nat}

theorem slice_inside (addressable : bytes.length ≤ maxDeclared)
    (inside : offset + size ≤ bytes.length) :
    ∃ octets, slice bytes offset size = .ok octets ∧
      (Cursor.at bytes offset).Passes octets.bytes (Cursor.at bytes (offset + size)) := by
  have small : ¬ maxDeclared < offset + size := by omega
  refine ⟨_, by rw [slice, if_neg small, dif_pos inside], ?_, ?_⟩
  · simp only [Cursor.at, ← List.drop_drop, List.take_append_drop]
  · simp only [Cursor.at, List.length_take, List.length_drop]
    omega

/-- A reader beyond the end is not refused a block of no bytes, and the slice lies outside. -/
theorem Decoder.execute_block_beyond (field : Field) (beyond : bytes.length < offset)
    (fits : offset ≤ maxDeclared) :
    ((block field 0).execute bytes offset).outcome = .error (.outOfBounds offset offset) := by
  have outside : slice bytes offset 0 = .error (.outOfBounds offset offset) := by
    rw [slice, if_neg (by omega), dif_neg (by omega), Nat.add_zero]
  rw [block, execute, if_neg (Nat.not_lt_zero _), outside]

/-- A reader within its bytes is refused a block that is not there in full, and it is granted any
other one. -/
theorem Decoder.take_steps {shortage : Nat → Nat → Fault} {next : Octets size → Decoder A}
    (addressable : bytes.length ≤ maxDeclared) (within : offset ≤ bytes.length) :
    ((take size shortage next).execute bytes offset =
        ⟨[⟨offset, size, false⟩], .ok (.error (shortage offset (bytes.length - offset)))⟩ ∧
      (take size shortage next).run (Cursor.at bytes offset) =
        .error (shortage offset (bytes.length - offset))) ∨
    (offset + size ≤ bytes.length ∧ ∃ octets,
      (take size shortage next).execute bytes offset =
        ((next octets).execute bytes (offset + size)).after ⟨offset, size, true⟩ ∧
      (take size shortage next).run (Cursor.at bytes offset) =
        (next octets).run (Cursor.at bytes (offset + size))) := by
  have left : (Cursor.at bytes offset).rest.length = bytes.length - offset := List.length_drop
  by_cases short : bytes.length - offset < size
  · left
    refine ⟨by rw [execute, if_pos short], ?_⟩
    rw [take_run_short (by rwa [left]), left]
    rfl
  · right
    have inside : offset + size ≤ bytes.length := by omega
    obtain ⟨octets, granted, passes⟩ := slice_inside addressable inside
    refine ⟨inside, octets, ?_, take_run_passes passes⟩
    rw [execute, if_neg short, granted]

/-- An execution goes the way of a run when it ends in the same way, without a trap, and its reader
stays within the bytes all the time. -/
structure Execution.Follows (execution : Execution A) (bytes : Bytes) (offset : Nat)
    (ran : Except Fault (A × Cursor)) : Prop where
  outcome : execution.outcome = .ok (ran.map fun reached => (reached.1, reached.2.offset))
  inside : ∀ request ∈ execution.requests, request.stop ≤ bytes.length
  reached : ∀ value next, ran = .ok (value, next) →
    next = Cursor.at bytes (offset + consumed execution.requests)

/-- Every decoder that starts within the bytes is executed as it is run. -/
theorem Decoder.execute_follows (addressable : bytes.length ≤ maxDeclared) (decoder : Decoder A)
    (within : offset ≤ bytes.length) :
    (decoder.execute bytes offset).Follows bytes offset (decoder.run (Cursor.at bytes offset)) := by
  induction decoder generalizing offset with
  | done value =>
      refine ⟨rfl, by simp [execute], ?_⟩
      intro result next finished
      obtain ⟨-, rfl⟩ := done_run_ok.mp finished
      rfl
  | fail fault => exact ⟨rfl, by simp [execute], fun _ _ impossible => by cases impossible⟩
  | locate next ih => exact ih offset within
  | take size shortage next ih =>
      -- The execution ends here, or its reader moves to a place that is again within the bytes.
      rcases take_steps addressable within with ⟨refused, failed⟩ | ⟨inside, octets, granted, ran⟩
      · rw [refused, failed]
        refine ⟨rfl, ?_, fun _ _ impossible => by cases impossible⟩
        intro request member
        cases List.mem_singleton.mp member
        exact within
      · have rest := ih octets inside
        rw [granted, ran]
        refine ⟨rest.outcome, ?_, ?_⟩
        · intro request member
          rcases List.mem_cons.mp member with rfl | later
          · exact inside
          · exact rest.inside request later
        · intro value last finished
          rw [rest.reached value last finished, Execution.after, consumed, ← Nat.add_assoc]
          rfl

/-- The reader moves only by its requests. -/
theorem Decoder.execute_chained (decoder : Decoder A) (bytes : Bytes) (offset : Nat) :
    Chained offset (decoder.execute bytes offset).requests := by
  induction decoder generalizing offset with
  | done value => trivial
  | fail fault => trivial
  | locate next ih => exact ih offset offset
  | take size shortage next ih =>
      rw [execute]
      split
      · exact ⟨rfl, trivial⟩
      · split
        · exact ⟨rfl, trivial⟩
        · next octets granted => exact ⟨rfl, ih octets (offset + size)⟩

/-- What remains at the end is counted as it is in a run. -/
theorem Decoder.execute_conclude (addressable : bytes.length ≤ maxDeclared) (decoder : Decoder A)
    (excess : Nat → Fault) :
    (decoder.execute bytes 0).conclude bytes excess = .ok (decoder.runAll excess bytes) := by
  have follows := decoder.execute_follows addressable (Nat.zero_le bytes.length)
  rw [Execution.conclude, follows.outcome, runAll]
  cases ran : decoder.run (Cursor.at bytes 0) with
  | error fault => rfl
  | ok reached =>
      obtain ⟨value, next⟩ := reached
      have left : next.rest.length = bytes.length - next.offset := by
        rw [follows.reached value next ran]
        exact List.length_drop
      have same : next.rest.isEmpty = true ↔ bytes.length - next.offset = 0 := by
        rw [List.isEmpty_iff, ← left, List.length_eq_zero_iff]
      simp only [Except.map, same, left]

/-- A decoder asks for blocks of at most so many bytes, whatever the bytes are, and all of its
values satisfy a condition. -/
def Decoder.Asks (most : Nat) (gives : A → Prop) : Decoder A → Prop
  | .done value => gives value
  | .fail _ => True
  | .locate next => ∀ offset, (next offset).Asks most gives
  | .take size _ next => size ≤ most ∧ ∀ octets, (next octets).Asks most gives

section

variable {B : Type} {most : Nat} {gives : A → Prop} {results : B → Prop}

theorem Decoder.Asks.bind {decoder : Decoder A} {after : A → Decoder B}
    (first : decoder.Asks most gives)
    (second : ∀ value, gives value → (after value).Asks most results) :
    (decoder.bind after).Asks most results := by
  induction decoder with
  | done value => exact second value first
  | fail fault => trivial
  | locate next ih =>
      intro offset
      exact ih offset (first offset)
  | take size shortage next ih => exact ⟨first.1, fun octets => ih octets (first.2 octets)⟩

theorem Decoder.Asks.manyFrom {item : Nat → Decoder A}
    (items : ∀ position, (item position).Asks most gives) (count position : Nat)
    (collected : List A) :
    (manyFrom item count position collected).Asks most fun _ => True := by
  induction count generalizing position collected with
  | zero => trivial
  | succ count ih => exact (items position).bind fun value _ => ih _ _

theorem Decoder.Asks.many {item : Nat → Decoder A}
    (items : ∀ position, (item position).Asks most gives) (count : Nat) :
    (many count item).Asks most fun _ => True :=
  manyFrom items count 0 []

/-- No request of an execution exceeds what the decoder asks for, wherever the reader stands. -/
theorem Decoder.Asks.size_le {decoder : Decoder A} (asks : decoder.Asks most gives)
    {request : Request} (member : request ∈ (decoder.execute bytes offset).requests) :
    request.size ≤ most := by
  induction decoder generalizing offset with
  | done value => cases member
  | fail fault => cases member
  | locate next ih => exact ih offset (asks offset) member
  | take size shortage next ih =>
      rw [execute] at member
      split at member
      · cases List.mem_singleton.mp member
        exact asks.1
      · split at member
        · cases List.mem_singleton.mp member
          exact asks.1
        · next octets granted =>
            rcases List.mem_cons.mp member with rfl | later
            · exact asks.1
            · exact ih octets (asks.2 octets) later

/-- One reader makes the requests, no size or sum needs more than 64 bits, and every slice ends
within the bytes. -/
structure Execution.InBounds (execution : Execution A) (bytes : Bytes) (start : Nat) : Prop where
  chained : Chained start execution.requests
  size_le : ∀ request ∈ execution.requests, request.size ≤ maxDeclared
  slice_le : ∀ request ∈ execution.requests, request.granted →
    request.offset + request.size ≤ bytes.length
  sum_le : ∀ request ∈ execution.requests, request.granted →
    request.offset + request.size ≤ maxDeclared

/-- A decoder that asks for sizes of 64 bits stays in bounds where it starts within the bytes. -/
theorem Decoder.Asks.execute_inBounds {decoder : Decoder A}
    (asks : decoder.Asks maxDeclared gives) (addressable : bytes.length ≤ maxDeclared)
    (within : offset ≤ bytes.length) : (decoder.execute bytes offset).InBounds bytes offset := by
  have slices (request : Request) (member : request ∈ (decoder.execute bytes offset).requests)
      (granted : request.granted) : request.offset + request.size ≤ bytes.length := by
    have inside := (decoder.execute_follows addressable within).inside request member
    rwa [Request.stop, Request.width, if_pos granted] at inside
  exact ⟨decoder.execute_chained bytes offset, fun _ member => asks.size_le member, slices,
    fun request member granted => Nat.le_trans (slices request member granted) addressable⟩

end

end

end CoinSpend
