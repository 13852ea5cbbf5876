/-
This file defines decoders as programs of reads, runs them on a cursor, and holds the limits with
which they compare declared counts and lengths.
-/

import CoinSpend.Fault

namespace CoinSpend

/-- A decoder ends with a value or a fault, asks for its offset, or takes a block of bytes. -/
inductive Decoder (A : Type) where
  | done (value : A)
  | fail (fault : Fault)
  | locate (next : Nat → Decoder A)
  | take (size : Nat) (shortage : Nat → Nat → Fault) (next : Octets size → Decoder A)

/-- A cursor holds an offset and the bytes from there on. -/
structure Cursor where
  rest : Bytes
  offset : Nat

/-- An offset beyond the end leaves no bytes. -/
def Cursor.at (bytes : Bytes) (offset : Nat) : Cursor := ⟨bytes.drop offset, offset⟩

def Cursor.advance (cursor : Cursor) (size : Nat) : Cursor :=
  ⟨cursor.rest.drop size, cursor.offset + size⟩

/-- A block that is not there in full is a shortage at the offset of the block. -/
def Decoder.run {A : Type} : Decoder A → Cursor → Except Fault (A × Cursor)
  | .done value, cursor => .ok (value, cursor)
  | .fail fault, _ => .error fault
  | .locate next, cursor => (next cursor.offset).run cursor
  | .take size shortage next, cursor =>
      if complete : (cursor.rest.take size).length = size then
        (next ⟨cursor.rest.take size, complete⟩).run (cursor.advance size)
      else .error (shortage cursor.offset cursor.rest.length)

/-- A run never gives bytes back. -/
theorem Decoder.rest_length_le {A : Type} {decoder : Decoder A} {cursor next : Cursor} {value : A}
    (success : decoder.run cursor = .ok (value, next)) :
    next.rest.length ≤ cursor.rest.length := by
  induction decoder generalizing cursor with
  | done value =>
      simp only [run, Except.ok.injEq, Prod.mk.injEq] at success
      simp [success.2]
  | fail fault => simp [run] at success
  | locate after ih => exact ih cursor.offset success
  | take size shortage after ih =>
      rw [run] at success
      split at success
      · refine Nat.le_trans (ih _ success) ?_
        simp [Cursor.advance]
      · simp at success

/-- The decoder has to use up all bytes; the excess is a fault. -/
def Decoder.runAll {A : Type} (decoder : Decoder A) (excess : Nat → Fault) (bytes : Bytes) :
    Except Fault A :=
  match decoder.run (Cursor.at bytes 0) with
  | .error fault => .error fault
  | .ok (value, cursor) =>
      if cursor.rest.isEmpty then .ok value else .error (excess cursor.rest.length)

def Decoder.bind {A B : Type} : Decoder A → (A → Decoder B) → Decoder B
  | .done value, after => after value
  | .fail fault, _ => .fail fault
  | .locate next, after => .locate fun offset => (next offset).bind after
  | .take size shortage next, after => .take size shortage fun block => (next block).bind after

/-- A joined decoder runs its two parts one after the other. -/
theorem Decoder.run_bind {A B : Type} (decoder : Decoder A) (after : A → Decoder B)
    (cursor : Cursor) :
    (decoder.bind after).run cursor =
      match decoder.run cursor with
      | .error fault => .error fault
      | .ok (value, next) => (after value).run next := by
  induction decoder generalizing cursor with
  | done value => rfl
  | fail fault => rfl
  | locate next ih => exact ih cursor.offset cursor
  | take size shortage next ih =>
      simp only [bind, run]
      split
      · exact ih _ _
      · rfl

instance : Monad Decoder where
  pure := Decoder.done
  bind := Decoder.bind

/-- The fault of a plain field that is cut short. -/
def shortField (field : Field) (needed : Nat) (offset available : Nat) : Fault :=
  .unexpectedEnd field needed offset available

def Decoder.block (field : Field) (size : Nat) : Decoder Bytes :=
  .take size (shortField field size) fun octets => .done octets.bytes

def Decoder.number (field : Field) (width : Nat) : Decoder Nat :=
  .take width (shortField field width) fun octets => .done octets.littleEndianValue

def Decoder.byte : Decoder UInt8 := do
  return UInt8.ofNat (← number .byte 1)

def Decoder.word32 : Decoder UInt32 := do
  return UInt32.ofNat (← number .word32 4)

def Decoder.word64 : Decoder UInt64 := do
  return UInt64.ofNat (← number .word64 8)

/-- The items are decoded one after another; each one learns its position. -/
def Decoder.manyFrom {A : Type} (item : Nat → Decoder A) :
    (count position : Nat) → (collected : List A) → Decoder (List A)
  | 0, _, collected => .done collected.reverse
  | count + 1, position, collected =>
      (item position).bind fun value => manyFrom item count (position + 1) (value :: collected)

def Decoder.many {A : Type} (count : Nat) (item : Nat → Decoder A) : Decoder (List A) :=
  manyFrom item count 0 []

/-- A declared count or length is compared with its limit before it is used. -/
structure Limits where
  maxInputs : Nat
  maxOutputs : Nat
  maxScriptBytes : Nat
deriving DecidableEq

/-- The largest number that a count or a length can declare. -/
def maxDeclared : Nat := 0xffffffffffffffff

def Limits.unlimited : Limits := ⟨maxDeclared, maxDeclared, maxDeclared⟩

def Limits.cap (limits : Limits) : Quantity → Nat
  | .inputCount => limits.maxInputs
  | .outputCount => limits.maxOutputs
  | .unlockingScriptLength | .lockingScriptLength => limits.maxScriptBytes

/-- A value above its limit is a fault that names both. -/
def Limits.check (limits : Limits) (quantity : Quantity) (value : Nat) : Decoder Unit :=
  if limits.cap quantity < value then .fail (.exceedsLimit quantity value (limits.cap quantity))
  else pure ()

end CoinSpend
