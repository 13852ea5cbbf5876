/-
This file states that values written one after another are read back in order, and that a scan
reads exactly the canonical front of any bytes.
-/

import CoinSpend.Proofs.CompactSize.Canonical

namespace CoinSpend.CompactSize

/-- A value is written behind what is there. -/
def append (written : Bytes) (value : Nat) : Bytes := written ++ encode value

/-- This is what a scan reports for a value. -/
def Item.of (value : Nat) : Item := ⟨value, size value⟩

/-- The offset moves on by what each item used. -/
def offsetBehind (offset : Nat) (items : List Item) : Nat :=
  items.foldl (fun reached item => reached + item.used) offset

/-- Values are read at one offset after another, up to the first fault. -/
inductive Scans (bytes : Bytes) : (offset : Nat) → List Item → Fault → Prop
  | stop {offset : Nat} {fault : Fault} (refused : readAt bytes offset = .error fault) :
      Scans bytes offset [] fault
  | step {offset : Nat} {item : Item} {items : List Item} {fault : Fault}
      (read : readAt bytes offset = .ok item)
      (later : Scans bytes (offset + item.used) items fault) :
      Scans bytes offset (item :: items) fault

theorem foldl_append (front : Bytes) (values : List Nat) :
    values.foldl append front = front ++ values.flatMap encode :=
  List.foldl_append_eq_append.trans (by rw [List.flatMap_def])

theorem size_pos (value : Nat) : 0 < size value := by
  unfold size
  cases Form.of value <;> decide

/-- An accepted item stands at its offset in canonical form. -/
theorem canonical_of_readAt {bytes : Bytes} {offset : Nat} {item : Item}
    (read : readAt bytes offset = .ok item) :
    item.value ≤ maxDeclared ∧ item = Item.of item.value ∧ offset + item.used ≤ bytes.length ∧
      bytes.drop offset = encode item.value ++ bytes.drop (offset + item.used) := by
  cases readAt_eq_iff_reading.mp read with
  | @canonical value declarable inside found =>
      have long := found.length_le
      rw [List.length_drop] at long
      refine ⟨declarable, by rw [Item.of, length_encode], ?_, ?_⟩
      · change offset + (encode value).length ≤ bytes.length
        omega
      · change _ = encode value ++ bytes.drop (offset + (encode value).length)
        rw [← List.drop_drop, List.prefix_iff_eq_append.mp found]

/-- The next cursor stands where the item says. -/
theorem readNext_of_readAt {bytes : Bytes} {offset : Nat} {item : Item}
    (read : readAt bytes offset = .ok item) :
    readNext (Cursor.at bytes offset) = .ok (item, Cursor.at bytes (offset + item.used)) := by
  obtain ⟨declarable, canonical, -, found⟩ := canonical_of_readAt read
  have used : item.used = (encode item.value).length := by
    rw [canonical, length_encode]
    rfl
  have passes : (Cursor.at bytes offset).Passes (encode item.value)
      (Cursor.at bytes (offset + item.used)) := ⟨found, by rw [used]; rfl⟩
  have moved : offset + item.used - offset = item.used := Nat.add_sub_cancel_left offset item.used
  rw [readNext, decoder_inverts.run_ok.mpr ⟨declarable, passes⟩]
  simp only [Cursor.at, moved]

theorem readNext_of_readAt_error {bytes : Bytes} {offset : Nat} {fault : Fault}
    (refused : readAt bytes offset = .error fault) :
    readNext (Cursor.at bytes offset) = .error fault := by
  rw [readAt] at refused
  cases ran : readNext (Cursor.at bytes offset) with
  | error other =>
      rw [ran] at refused
      cases refused
      rfl
  | ok pair =>
      rw [ran] at refused
      cases refused

/-- A scan goes on behind each item. -/
theorem scanFrom_step (cursor : Cursor) (collected : List Item) :
    scanFrom cursor collected =
      match readNext cursor with
      | .error fault => (collected.reverse, fault)
      | .ok (item, next) => scanFrom next (item :: collected) := by
  rw [scanFrom]
  split
  · next fault refused => rw [refused]
  · next item next read => rw [read]

/-- The items are collected behind those that were read before. -/
theorem Scans.scanFrom_eq {bytes : Bytes} {offset : Nat} {items : List Item} {fault : Fault}
    (scans : Scans bytes offset items fault) (collected : List Item) :
    scanFrom (Cursor.at bytes offset) collected = (collected.reverse ++ items, fault) := by
  induction scans generalizing collected with
  | stop refused => rw [scanFrom_step, readNext_of_readAt_error refused, List.append_nil]
  | step read later ih =>
      rw [scanFrom_step, readNext_of_readAt read]
      simp only [ih, List.reverse_cons, List.append_assoc, List.singleton_append]

/-- A scan comes to an end at every offset. -/
theorem exists_scans (bytes : Bytes) (offset : Nat) :
    ∃ items fault, Scans bytes offset items fault := by
  -- Every item uses at least one of the bytes that are left.
  induction left : bytes.length - offset using Nat.strongRecOn generalizing offset with
  | ind left ih =>
      cases read : readAt bytes offset with
      | error fault => exact ⟨[], fault, .stop read⟩
      | ok item =>
          obtain ⟨-, canonical, inside, -⟩ := canonical_of_readAt read
          have positive : 0 < item.used := by
            rw [canonical]
            exact size_pos item.value
          obtain ⟨items, fault, later⟩ :=
            ih (bytes.length - (offset + item.used)) (by omega) (offset + item.used) rfl
          exact ⟨item :: items, fault, .step read later⟩

theorem scanFrom_eq_iff_scans {bytes : Bytes} {offset : Nat} {items : List Item} {fault : Fault} :
    scanFrom (Cursor.at bytes offset) [] = (items, fault) ↔ Scans bytes offset items fault := by
  constructor
  · intro scanned
    obtain ⟨others, other, scans⟩ := exists_scans bytes offset
    rw [scans.scanFrom_eq] at scanned
    cases scanned
    exact scans
  · intro scans
    exact scans.scanFrom_eq []

/-- What a scan has consumed is the written form of what it has read. -/
theorem Scans.consumed {bytes : Bytes} {offset : Nat} {items : List Item} {fault : Fault}
    (scans : Scans bytes offset items fault) (inside : offset ≤ bytes.length) :
    offsetBehind offset items ≤ bytes.length ∧
      bytes.drop offset =
        (items.map Item.value).flatMap encode ++ bytes.drop (offsetBehind offset items) := by
  induction scans with
  | stop refused => exact ⟨inside, rfl⟩
  | @step offset item items fault read later ih =>
      obtain ⟨-, -, behind, found⟩ := canonical_of_readAt read
      obtain ⟨within, rest⟩ := ih behind
      refine ⟨within, ?_⟩
      rw [found, rest, List.map_cons, List.flatMap_cons, List.append_assoc]
      rfl

theorem Scans.declarable {bytes : Bytes} {offset : Nat} {items : List Item} {fault : Fault}
    (scans : Scans bytes offset items fault) :
    ∀ value ∈ items.map Item.value, value ≤ maxDeclared := by
  induction scans with
  | stop refused => simp
  | step read later ih => exact List.forall_mem_cons.mpr ⟨(canonical_of_readAt read).1, ih⟩

/-- Where written values are all that is left, a scan reads them and runs out of bytes. -/
theorem scans_of_written {bytes : Bytes} {offset : Nat} {values : List Nat}
    (declarable : ∀ value ∈ values, value ≤ maxDeclared) (inside : offset ≤ bytes.length)
    (left : bytes.drop offset = values.flatMap encode) :
    Scans bytes offset (values.map Item.of) (.unexpectedEnd .byte 1 bytes.length 0) := by
  induction values generalizing offset with
  | nil =>
      have beyond : bytes.length ≤ offset := List.drop_eq_nil_iff.mp left
      have last : offset = bytes.length := Nat.le_antisymm inside beyond
      rw [← last]
      exact .stop (readAt_of_reading (.missing beyond))
  | cons value values ih =>
      obtain ⟨fits, later⟩ := List.forall_mem_cons.mp declarable
      rw [List.flatMap_cons] at left
      have found : encode value <+: bytes.drop offset := ⟨_, left.symm⟩
      have read : readAt bytes offset = .ok (Item.of value) := by
        rw [Item.of, ← length_encode]
        exact readAt_of_reading (.canonical fits inside found)
      obtain ⟨-, -, behind, rest⟩ := canonical_of_readAt read
      exact .step read (ih later behind (List.append_cancel_left (rest.symm.trans left)))

/-- Where written values are all that is left, nothing else is read. -/
theorem Scans.values_eq {bytes : Bytes} {offset : Nat} {items : List Item} {fault : Fault}
    {values : List Nat} (scans : Scans bytes offset items fault)
    (declarable : ∀ value ∈ values, value ≤ maxDeclared) (inside : offset ≤ bytes.length)
    (left : bytes.drop offset = values.flatMap encode) : items.map Item.value = values := by
  have known := scans_of_written declarable inside left
  have same := (scans.scanFrom_eq []).symm.trans (known.scanFrom_eq [])
  have read := congrArg (fun result => result.1.map Item.value) same
  simpa [Item.of, Function.comp_def] using read

/-- Values that are written one after another can be told apart. -/
theorem flatMap_encode_inj {values others : List Nat}
    (declarable : ∀ value ∈ values, value ≤ maxDeclared)
    (otherDeclarable : ∀ value ∈ others, value ≤ maxDeclared)
    (same : values.flatMap encode = others.flatMap encode) : values = others := by
  obtain ⟨items, fault, scans⟩ := exists_scans (values.flatMap encode) 0
  have read := scans.values_eq declarable (Nat.zero_le _) List.drop_zero
  have otherRead := scans.values_eq otherDeclarable (Nat.zero_le _) (List.drop_zero.trans same)
  exact read.symm.trans otherRead

/-- A scan uses up all bytes exactly when they are written values and nothing else. -/
theorem Scans.consumed_all_iff {bytes : Bytes} {items : List Item} {fault : Fault}
    (scans : Scans bytes 0 items fault) :
    offsetBehind 0 items = bytes.length ↔
      ∃ values : List Nat, (∀ value ∈ values, value ≤ maxDeclared) ∧
        bytes = values.flatMap encode := by
  obtain ⟨within, front⟩ := scans.consumed (Nat.zero_le _)
  rw [List.drop_zero] at front
  constructor
  · intro all
    rw [all, List.drop_length, List.append_nil] at front
    exact ⟨items.map Item.value, scans.declarable, front⟩
  · rintro ⟨values, declarable, written⟩
    have read := scans.values_eq declarable (Nat.zero_le _) (List.drop_zero.trans written)
    rw [read, ← written, List.self_eq_append_right, List.drop_eq_nil_iff] at front
    exact Nat.le_antisymm within front

/-- A scan is the same as reading at one offset after another. Values that are written behind any
bytes leave these as they are and are read back in order, and then the bytes are used up. In any
bytes the scan stops behind the written form of what it has read, which is all of them exactly when
they are nothing but written values. -/
theorem scan_stream :
    (∀ bytes offset items fault, scanFrom (Cursor.at bytes offset) [] = (items, fault) ↔
      Scans bytes offset items fault) ∧
    (∀ (front : Bytes) (values : List Nat), (∀ value ∈ values, value ≤ maxDeclared) →
      values.foldl append front = front ++ values.foldl append [] ∧
        Scans (values.foldl append front) front.length (values.map Item.of)
          (.unexpectedEnd .byte 1 (values.foldl append front).length 0)) ∧
    (∀ values others : List Nat, (∀ value ∈ values, value ≤ maxDeclared) →
      (∀ value ∈ others, value ≤ maxDeclared) →
      values.foldl append [] = others.foldl append [] → values = others) ∧
    (∀ bytes, ∃ items fault, scan bytes = (items, fault) ∧ Scans bytes 0 items fault ∧
      (items.map Item.value).flatMap encode = bytes.take (offsetBehind 0 items) ∧
      offsetBehind 0 items ≤ bytes.length ∧
      (offsetBehind 0 items = bytes.length ↔
        ∃ values : List Nat, (∀ value ∈ values, value ≤ maxDeclared) ∧
          bytes = values.flatMap encode)) := by
  refine ⟨fun _ _ _ _ => scanFrom_eq_iff_scans, ?_, ?_, ?_⟩
  · intro front values declarable
    rw [foldl_append, foldl_append, List.nil_append]
    refine ⟨rfl, scans_of_written declarable ?_ List.drop_left⟩
    rw [List.length_append]
    exact Nat.le_add_right _ _
  · intro values others declarable otherDeclarable same
    rw [foldl_append, foldl_append] at same
    exact flatMap_encode_inj declarable otherDeclarable same
  · intro bytes
    obtain ⟨items, fault, scans⟩ := exists_scans bytes 0
    obtain ⟨within, front⟩ := scans.consumed (Nat.zero_le _)
    have parts : bytes.take (offsetBehind 0 items) ++ bytes.drop (offsetBehind 0 items) =
        (items.map Item.value).flatMap encode ++ bytes.drop (offsetBehind 0 items) := by
      rw [List.take_append_drop, ← front, List.drop_zero]
    exact ⟨items, fault, scanFrom_eq_iff_scans.mpr scans, scans,
      (List.append_cancel_right parts).symm, within, scans.consumed_all_iff⟩

/-- Values of all four widths are read back behind a byte that is no value. -/
theorem scan_behind :
    scanFrom (Cursor.at [0xfd, 0xfc, 0xfd, 0xfd, 0x00, 0xfe, 0x00, 0x00, 0x01, 0x00, 0xff, 0xff,
      0xff, 0xff, 0xff, 0xff, 0xff, 0xff, 0xff] 1) [] =
      ([⟨0xfc, 1⟩, ⟨0xfd, 3⟩, ⟨0x10000, 5⟩, ⟨maxDeclared, 9⟩], .unexpectedEnd .byte 1 19 0) :=
  (scan_stream.1 _ _ _ _).mpr
    (scan_stream.2.1 [0xfd] [0xfc, 0xfd, 0x10000, maxDeclared] (by decide)).2

end CoinSpend.CompactSize
