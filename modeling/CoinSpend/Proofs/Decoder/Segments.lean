/-
This file follows the fields that a run takes and states where the run fails when its bytes are cut
off: at the first field that is not there in full.
-/

import CoinSpend.Proofs.Decoder

namespace CoinSpend

/-- A segment holds the bytes of a plain field, or those of the previous hash of one input. -/
inductive Segment where
  | plain (field : Field) (bytes : Bytes)
  | previousHash (position count : Nat) (bytes : Bytes)

def Segment.bytes : Segment → Bytes
  | .plain _ bytes | .previousHash _ _ bytes => bytes

/-- Only a plain field is reported with its offset and with what is left of it. -/
def Segment.shortage : Segment → (offset available : Nat) → Fault
  | .plain field bytes => shortField field bytes.length
  | .previousHash position count _ => fun _ _ => .missingPreviousHash position count

/-- The bytes of all segments stand one behind the other. -/
def written (segments : List Segment) : Bytes := segments.flatMap Segment.bytes

@[simp] theorem written_nil : written [] = [] := rfl

@[simp] theorem written_cons (segment : Segment) (rest : List Segment) :
    written (segment :: rest) = segment.bytes ++ written rest :=
  List.flatMap_cons

/-- A cut strikes the first segment that does not lie wholly in front of it. An empty segment is
never struck. -/
structure Segment.Struck (segment : Segment) (front : List Segment) (cut : Nat) : Prop where
  before : (written front).length ≤ cut
  through : cut < (written front).length + segment.bytes.length

/-- Every cut within the bytes strikes a segment. -/
theorem exists_struck (segments : List Segment) {cut : Nat}
    (within : cut < (written segments).length) :
    ∃ front segment rest, segments = front ++ segment :: rest ∧ segment.Struck front cut := by
  induction segments generalizing cut with
  | nil => exact absurd within (Nat.not_lt_zero cut)
  | cons first segments ih =>
      rw [written_cons, List.length_append] at within
      by_cases passed : first.bytes.length ≤ cut
      · obtain ⟨front, segment, rest, rfl, before, through⟩ :=
          ih (show cut - first.bytes.length < (written segments).length by omega)
        refine ⟨first :: front, segment, rest, rfl, ?_, ?_⟩
        · rw [written_cons, List.length_append]
          omega
        · rw [written_cons, List.length_append]
          omega
      · refine ⟨[], first, segments, rfl, Nat.zero_le cut, ?_⟩
        simp only [written_nil, List.length_nil]
        omega

/-- A decoder takes segments one after another until it has a value. -/
inductive Decoder.Takes {A : Type} :
    Decoder A → Cursor → List Segment → A → Cursor → Prop where
  | done (value : A) (cursor : Cursor) : Takes (.done value) cursor [] value cursor
  | locate {next : Nat → Decoder A} {cursor last : Cursor} {segments : List Segment} {value : A}
      (rest : Takes (next cursor.offset) cursor segments value last) :
      Takes (.locate next) cursor segments value last
  | take {size : Nat} {shortage : Nat → Nat → Fault} {next : Octets size → Decoder A}
      {cursor middle last : Cursor} {octets : Octets size} {segment : Segment}
      {segments : List Segment} {value : A} (holds : segment.bytes = octets.bytes)
      (reported : segment.shortage = shortage) (passes : cursor.Passes octets.bytes middle)
      (rest : Takes (next octets) middle segments value last) :
      Takes (.take size shortage next) cursor (segment :: segments) value last

/-- Only so many bytes are left to the cursor. -/
def Cursor.upTo (cursor : Cursor) (count : Nat) : Cursor :=
  ⟨cursor.rest.take count, cursor.offset⟩

/-- What lies wholly in front of the cut is passed over as before. -/
theorem Cursor.Passes.upTo {cursor next : Cursor} {bytes : Bytes}
    (passes : cursor.Passes bytes next) {count : Nat} (inside : bytes.length ≤ count) :
    (cursor.upTo count).Passes bytes (next.upTo (count - bytes.length)) where
  found := by
    simp only [Cursor.upTo]
    rw [passes.found, List.take_append, List.take_of_length_le inside]
  behind := passes.behind

namespace Decoder

variable {A B : Type} {decoder : Decoder A} {cursor middle last : Cursor} {value : A}

/-- The segments are all that a run passes over. -/
theorem Takes.passes {segments : List Segment}
    (takes : decoder.Takes cursor segments value last) :
    cursor.Passes (written segments) last := by
  induction takes with
  | done value cursor => exact Cursor.passes_nil.mpr rfl
  | locate rest ih => exact ih
  | take holds reported passes rest ih =>
      rw [written_cons, holds]
      exact Cursor.passes_append.mpr ⟨_, passes, ih⟩

theorem Takes.bind {after : A → Decoder B} {front back : List Segment} {result : B}
    (first : decoder.Takes cursor front value middle)
    (second : (after value).Takes middle back result last) :
    (decoder.bind after).Takes cursor (front ++ back) result last := by
  induction first with
  | done value cursor => exact second
  | locate rest ih => exact .locate (ih second)
  | take holds reported passes rest ih => exact .take holds reported passes (ih second)

/-- What follows without taking anything leaves the segments as they are. -/
theorem Takes.bind_done {after : A → Decoder B} {segments : List Segment} {result : B}
    (first : decoder.Takes cursor segments value last) (followed : after value = .done result) :
    (decoder.bind after).Takes cursor segments result last := by
  have second : (after value).Takes last [] result last := by
    rw [followed]
    exact .done result last
  simpa using first.bind second

/-- A run on bytes that are cut off fails at the segment that the cut strikes. -/
theorem Takes.run_upTo {segment : Segment} {front rest : List Segment}
    (takes : decoder.Takes cursor (front ++ segment :: rest) value last) {cut : Nat}
    (struck : segment.Struck front cut) :
    decoder.run (cursor.upTo cut) =
      .error (segment.shortage (cursor.offset + (written front).length)
        (cut - (written front).length)) := by
  generalize whole : front ++ segment :: rest = segments at takes
  induction takes generalizing front cut with
  | done value cursor => simp at whole
  | locate rest ih => exact ih struck whole
  | @take size shortage next cursor middle last octets first segments value holds reported passes
      rest ih =>
      have sized := octets.length_eq
      obtain ⟨before, through⟩ := struck
      -- The cut strikes the first segment, or the run passes over it and the cut comes closer.
      cases front with
      | nil =>
          obtain ⟨rfl, -⟩ := List.cons_eq_cons.mp whole
          have found := congrArg List.length passes.found
          have left : (cursor.upTo cut).rest.length = cut := by
            simp only [written_nil, List.length_nil, holds, List.length_append] at through found
            simp only [Cursor.upTo, List.length_take]
            omega
          have short : (cursor.upTo cut).rest.length < size := by
            simp only [written_nil, List.length_nil, holds] at through
            omega
          rw [take_run_short short, left, reported]
          rfl
      | cons head front =>
          obtain ⟨rfl, others⟩ := List.cons_eq_cons.mp whole
          simp only [written_cons, List.length_append, holds] at before through
          have struck : segment.Struck front (cut - octets.bytes.length) :=
            ⟨by omega, by omega⟩
          rw [take_run_passes (passes.upTo (by omega)), ih struck others, passes.behind,
            written_cons, List.length_append, holds, Nat.add_assoc, Nat.sub_sub]

/-- A decoder lays out its value when every successful run takes the segments of the result. -/
structure LaysOut (decoder : Decoder A) (layout : A → List Segment) : Prop where
  takes {cursor last : Cursor} {value : A} (ran : decoder.run cursor = .ok (value, last)) :
    decoder.Takes cursor (layout value) value last

/-- A decoder that only changes the value is laid out like the one that reads it. -/
theorem LaysOut.map {layout : A → List Segment} {other : B → List Segment} {change : A → B}
    (laysOut : decoder.LaysOut layout)
    (same : ∀ {cursor last value}, decoder.run cursor = .ok (value, last) →
      layout value = other (change value)) :
    (decoder.bind fun value => .done (change value)).LaysOut other where
  takes ran := by
    obtain ⟨value, middle, first, done⟩ := bind_run_ok.mp ran
    obtain ⟨rfl, rfl⟩ := done_run_ok.mp done
    rw [← same first]
    exact (laysOut.takes first).bind_done rfl

/-- A decoder that only checks the value afterwards is laid out like the one that reads it. -/
theorem LaysOut.guard {layout : A → List Segment} {after : A → Decoder A}
    (laysOut : decoder.LaysOut layout)
    (guards : ∀ {cursor last value result}, (after value).run cursor = .ok (result, last) →
      result = value ∧ (after value).Takes cursor [] value last) :
    (decoder.bind after).LaysOut layout where
  takes ran := by
    obtain ⟨value, middle, first, second⟩ := bind_run_ok.mp ran
    obtain ⟨rfl, checked⟩ := guards second
    simpa using (laysOut.takes first).bind checked

/-- The items behind the collected ones are laid out one after another, each at its position. -/
theorem manyFrom_takes {item : Nat → Decoder A} {layout : Nat → A → List Segment}
    (items : ∀ position, (item position).LaysOut (layout position)) (count : Nat) {position : Nat}
    {collected values : List A}
    (ran : (manyFrom item count position collected).run cursor = .ok (values, last)) :
    ∃ fresh, values = collected.reverse ++ fresh ∧
      (manyFrom item count position collected).Takes cursor
        (fresh.mapIdx fun index => layout (position + index)).flatten values last := by
  induction count generalizing position collected cursor with
  | zero =>
      rw [manyFrom, done_run_ok] at ran
      obtain ⟨rfl, rfl⟩ := ran
      exact ⟨[], (List.append_nil _).symm, .done _ _⟩
  | succ count ih =>
      rw [manyFrom, bind_run_ok] at ran
      obtain ⟨value, middle, first, second⟩ := ran
      obtain ⟨fresh, rfl, takes⟩ := ih second
      have shifted : ((value :: fresh).mapIdx fun index => layout (position + index)).flatten =
          layout position value ++
            (fresh.mapIdx fun index => layout (position + 1 + index)).flatten := by
        simp only [List.mapIdx_cons, List.flatten_cons, Nat.add_zero, Nat.add_assoc,
          Nat.add_comm 1]
      refine ⟨value :: fresh, by simp, ?_⟩
      rw [shifted]
      exact ((items position).takes first).bind takes

theorem many_laysOut {item : Nat → Decoder A} {layout : Nat → A → List Segment}
    (items : ∀ position, (item position).LaysOut (layout position)) (count : Nat) :
    (many count item).LaysOut fun values => (values.mapIdx layout).flatten where
  takes ran := by
    obtain ⟨fresh, rfl, takes⟩ := manyFrom_takes items count ran
    simp only [Nat.zero_add] at takes
    exact takes

/-- Bytes that are used up consist of the segments of their value. -/
theorem LaysOut.written_layout {layout : A → List Segment} (laysOut : decoder.LaysOut layout)
    {excess : Nat → Fault} {bytes : Bytes} (accepted : decoder.runAll excess bytes = .ok value) :
    written (layout value) = bytes := by
  obtain ⟨last, ran, nothing⟩ := runAll_eq_ok.mp accepted
  exact ((Cursor.passes_all nothing).mp (laysOut.takes ran).passes).1.symm

/-- Of bytes that would be used up only a front part is there. -/
theorem LaysOut.runAll_take {layout : A → List Segment} (laysOut : decoder.LaysOut layout)
    {excess : Nat → Fault} {bytes : Bytes} (accepted : decoder.runAll excess bytes = .ok value)
    {front rest : List Segment} {segment : Segment} {cut : Nat}
    (parts : layout value = front ++ segment :: rest) (struck : segment.Struck front cut) :
    decoder.runAll excess (bytes.take cut) =
      .error (segment.shortage (written front).length (cut - (written front).length)) := by
  obtain ⟨last, ran, -⟩ := runAll_eq_ok.mp accepted
  have takes := laysOut.takes ran
  rw [parts] at takes
  have failed : decoder.run (Cursor.at (bytes.take cut) 0) = _ := takes.run_upTo struck
  rw [runAll, failed, Cursor.at, Nat.zero_add]

end Decoder

end CoinSpend
