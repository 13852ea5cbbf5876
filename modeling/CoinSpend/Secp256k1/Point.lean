/-
This file holds the points of secp256k1 and their encodings.
-/

import CoinSpend.Secp256k1.Field

namespace CoinSpend.Secp256k1

/-- This is a point other than infinity, in affine coordinates. -/
structure Point where
  x : Nat
  y : Nat
deriving DecidableEq

/-- The right side of the curve equation. -/
def curveSide (x : Nat) : Nat := (x * x * x + 7) % fieldSize

def Point.OnCurve (point : Point) : Prop :=
  point.x < fieldSize ∧ point.y < fieldSize ∧
    point.y * point.y % fieldSize = curveSide point.x

instance (point : Point) : Decidable point.OnCurve := inferInstanceAs (Decidable (_ ∧ _))

def Point.base : Point :=
  ⟨0x79be667ef9dcbbac55a06295ce870b07029bfcdb2dce28d959f2815b16f81798,
    0x483ada7726a3c4655da4fbfc0e1108a8fd17b448a68554199c47d08ffb10d4b8⟩

theorem Point.base_onCurve : Point.base.OnCurve := by decide +kernel

/-- The two points with one first coordinate differ in the parity of the second. -/
def Point.ofX? (odd : Bool) (x : Nat) : Option Point :=
  let root := rootCandidate (curveSide x)
  let point : Point :=
    ⟨x, if decide (root % 2 = 1) = odd then root else (fieldSize - root) % fieldSize⟩
  if point.OnCurve then some point else none

def Point.ofCoordinates? (x y : Nat) : Option Point :=
  let point : Point := ⟨x, y⟩
  if point.OnCurve then some point else none

/-- The forms of an encoded point: one coordinate and a parity, both coordinates, or both
coordinates with a parity that has to agree. -/
inductive PointForm where
  | compressed (odd : Bool)
  | uncompressed
  | hybrid (odd : Bool)
deriving DecidableEq

def PointForm.ofTag? (tag : UInt8) : Option PointForm :=
  if tag = 0x02 then some (.compressed false)
  else if tag = 0x03 then some (.compressed true)
  else if tag = 0x04 then some .uncompressed
  else if tag = 0x06 then some (.hybrid false)
  else if tag = 0x07 then some (.hybrid true)
  else none

/-- The body of a point follows the tag. -/
def PointForm.point? (body : Bytes) : PointForm → Option Point
  | .compressed odd => if body.length = 32 then Point.ofX? odd (ofBigEndian body) else none
  | .uncompressed => both
  | .hybrid odd => both.filter fun point => decide (point.y % 2 = 1) = odd
where
  both : Option Point :=
    if body.length = 64 then
      Point.ofCoordinates? (ofBigEndian (body.take 32)) (ofBigEndian (body.drop 32))
    else none

def Point.decode? : Bytes → Option Point
  | [] => none
  | tag :: body => (PointForm.ofTag? tag).bind fun form => form.point? body

/-- Both coordinates follow the tag `04`. -/
def Point.encode (point : Point) : Octets 65 :=
  ⟨0x04 :: (toBigEndian 32 point.x ++ toBigEndian 32 point.y), by simp⟩

end CoinSpend.Secp256k1
