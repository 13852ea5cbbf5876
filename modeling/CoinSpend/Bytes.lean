/-
This file holds byte strings, byte strings of a fixed size and the two byte orders.
-/

namespace CoinSpend

abbrev Bytes := List UInt8

/-- The bytes of a number, least significant first; what exceeds the width is dropped. -/
def toLittleEndian : (width value : Nat) → Bytes
  | 0, _ => []
  | width + 1, value => UInt8.ofNat (value % 256) :: toLittleEndian width (value / 256)

def ofLittleEndian : Bytes → Nat
  | [] => 0
  | byte :: rest => byte.toNat + 256 * ofLittleEndian rest

def toBigEndian (width value : Nat) : Bytes := (toLittleEndian width value).reverse

def ofBigEndian (bytes : Bytes) : Nat := ofLittleEndian bytes.reverse

@[simp] theorem length_toLittleEndian (width value : Nat) :
    (toLittleEndian width value).length = width := by
  induction width generalizing value with
  | zero => rfl
  | succ width ih => simp [toLittleEndian, ih]

@[simp] theorem length_toBigEndian (width value : Nat) :
    (toBigEndian width value).length = width := by
  simp [toBigEndian]

/-- Writing gives the bytes back. -/
theorem toLittleEndian_ofLittleEndian (bytes : Bytes) :
    toLittleEndian bytes.length (ofLittleEndian bytes) = bytes := by
  induction bytes with
  | nil => rfl
  | cons byte rest ih =>
      have := byte.toNat_lt
      have low : (byte.toNat + 256 * ofLittleEndian rest) % 256 = byte.toNat := by omega
      have high : (byte.toNat + 256 * ofLittleEndian rest) / 256 = ofLittleEndian rest := by omega
      simp [toLittleEndian, ofLittleEndian, low, high, ih]

/-- This is a byte string of a fixed size. -/
structure Octets (size : Nat) where
  bytes : Bytes
  length_eq : bytes.length = size
deriving DecidableEq

@[ext] theorem Octets.ext {size : Nat} {left right : Octets size}
    (same : left.bytes = right.bytes) : left = right := by
  cases left
  cases right
  cases same
  rfl

def Octets.littleEndian (size value : Nat) : Octets size :=
  ⟨toLittleEndian size value, length_toLittleEndian size value⟩

def Octets.bigEndian (size value : Nat) : Octets size :=
  ⟨toBigEndian size value, length_toBigEndian size value⟩

def Octets.littleEndianValue {size : Nat} (octets : Octets size) : Nat :=
  ofLittleEndian octets.bytes

def Octets.bigEndianValue {size : Nat} (octets : Octets size) : Nat :=
  ofBigEndian octets.bytes

def Octets.reverse {size : Nat} (octets : Octets size) : Octets size :=
  ⟨octets.bytes.reverse, by simp [octets.length_eq]⟩

@[simp] theorem Octets.reverse_reverse {size : Nat} (octets : Octets size) :
    octets.reverse.reverse = octets := by
  ext1
  simp [reverse]

theorem Octets.reverse_inj {size : Nat} {left right : Octets size} :
    left.reverse = right.reverse ↔ left = right := by
  constructor
  · intro same
    have turned := congrArg Octets.reverse same
    simpa only [reverse_reverse] using turned
  · intro same
    rw [same]

/-- This function accepts a byte string of exactly the given size. -/
def Octets.ofBytes? (size : Nat) (bytes : Bytes) : Option (Octets size) :=
  if exact : bytes.length = size then some ⟨bytes, exact⟩ else none

end CoinSpend
