/-
This file defines CompactSize, the variable-width encoding of counts and lengths.
-/

import CoinSpend.Decoder

namespace CoinSpend.CompactSize

/-- The four forms differ in the width of the number after the tag byte. -/
inductive Form where
  | bare
  | short
  | medium
  | long
deriving DecidableEq

/-- The shortest form that can carry a value. -/
def Form.of (value : Nat) : Form :=
  if value < 0xfd then .bare
  else if value < 0x10000 then .short
  else if value < 0x100000000 then .medium
  else .long

/-- The bare form keeps its value in the tag byte. -/
def Form.ofTag (tag : UInt8) : Form :=
  if tag = 0xfd then .short
  else if tag = 0xfe then .medium
  else if tag = 0xff then .long
  else .bare

def Form.encode (value : Nat) : Form → Bytes
  | .bare => toLittleEndian 1 value
  | .short => 0xfd :: toLittleEndian 2 value
  | .medium => 0xfe :: toLittleEndian 4 value
  | .long => 0xff :: toLittleEndian 8 value

def Form.size : Form → Nat
  | .bare => 1
  | .short => 3
  | .medium => 5
  | .long => 9

def Form.payload (tag : UInt8) : Form → Decoder Nat
  | .bare => pure tag.toNat
  | .short => Decoder.number .word16 2
  | .medium => Decoder.number .word32 4
  | .long => Decoder.number .word64 8

def encode (value : Nat) : Bytes := (Form.of value).encode value

def size (value : Nat) : Nat := (Form.of value).size

theorem length_encode (value : Nat) : (encode value).length = size value := by
  unfold encode size
  cases Form.of value <;> simp [Form.encode, Form.size]

/-- A value that a shorter form could carry is a fault at the offset of its tag. -/
def decoder : Decoder Nat :=
  .locate fun start => do
    let tag ← Decoder.byte
    let form := Form.ofTag tag
    let value ← form.payload tag
    if Form.of value = form then return value
    else .fail (.nonMinimal value start)

/-- This is a decoded value and the number of bytes that it occupied. -/
structure Item where
  value : Nat
  used : Nat
deriving DecidableEq

/-- This function decodes one value and moves the cursor behind it. -/
def readNext (cursor : Cursor) : Except Fault (Item × Cursor) :=
  match decoder.run cursor with
  | .error fault => .error fault
  | .ok (value, next) => .ok (⟨value, next.offset - cursor.offset⟩, next)

/-- Every value occupies at least its tag byte. -/
theorem rest_length_lt {cursor next : Cursor} {item : Item}
    (success : readNext cursor = .ok (item, next)) :
    next.rest.length < cursor.rest.length := by
  unfold readNext at success
  split at success
  · simp at success
  · next value after ran =>
      simp only [Except.ok.injEq, Prod.mk.injEq] at success
      obtain ⟨-, rfl⟩ := success
      simp only [decoder, Decoder.byte, Decoder.number, bind, pure, Decoder.bind,
        Decoder.run] at ran
      split at ran
      · next complete =>
          have shrinks := Decoder.rest_length_le ran
          simp only [List.length_take] at complete
          simp only [Cursor.advance, List.length_drop] at shrinks
          omega
      · simp at ran

/-- This function reads values one after another until the first fault. -/
def scanFrom (cursor : Cursor) (collected : List Item) : List Item × Fault :=
  match _ : readNext cursor with
  | .error fault => (collected.reverse, fault)
  | .ok (item, next) => scanFrom next (item :: collected)
termination_by cursor.rest.length
decreasing_by exact rest_length_lt (by assumption)

def scan (bytes : Bytes) : List Item × Fault := scanFrom (Cursor.at bytes 0) []

def readAt (bytes : Bytes) (offset : Nat) : Except Fault Item :=
  (readNext (Cursor.at bytes offset)).map Prod.fst

end CoinSpend.CompactSize
