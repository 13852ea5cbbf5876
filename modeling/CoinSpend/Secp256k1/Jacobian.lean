/-
This file adds and multiplies points in Jacobian coordinates.
-/

import CoinSpend.Secp256k1.Point

namespace CoinSpend.Secp256k1

/-- The affine coordinates are `x / z ^ 2` and `y / z ^ 3`; infinity has `z = 0`. -/
structure Jacobian where
  x : Nat
  y : Nat
  z : Nat
deriving DecidableEq

def Jacobian.infinity : Jacobian := ⟨1, 1, 0⟩

def Point.toJacobian (point : Point) : Jacobian := ⟨point.x, point.y, 1⟩

def Jacobian.double (point : Jacobian) : Jacobian :=
  let xSquare := point.x * point.x % fieldSize
  let ySquare := point.y * point.y % fieldSize
  let yFourth := ySquare * ySquare % fieldSize
  let middle := 4 * point.x * ySquare % fieldSize
  let slope := 3 * xSquare % fieldSize
  let x := minus (slope * slope % fieldSize) (2 * middle % fieldSize)
  ⟨x, minus (slope * minus middle x % fieldSize) (8 * yFourth % fieldSize),
    2 * point.y * point.z % fieldSize⟩

/-- Equal points are doubled and opposite points give infinity. -/
def Jacobian.add (left right : Jacobian) : Jacobian :=
  if left.z = 0 then right
  else if right.z = 0 then left
  else
    let leftSquare := left.z * left.z % fieldSize
    let rightSquare := right.z * right.z % fieldSize
    let leftX := left.x * rightSquare % fieldSize
    let rightX := right.x * leftSquare % fieldSize
    let leftY := left.y * right.z % fieldSize * rightSquare % fieldSize
    let rightY := right.y * left.z % fieldSize * leftSquare % fieldSize
    if leftX = rightX then
      if leftY = rightY then left.double else infinity
    else
      let run := minus rightX leftX
      let rise := minus rightY leftY
      let runSquare := run * run % fieldSize
      let runCube := runSquare * run % fieldSize
      let middle := leftX * runSquare % fieldSize
      let x := minus (minus (rise * rise % fieldSize) runCube) (2 * middle % fieldSize)
      ⟨x, minus (rise * minus middle x % fieldSize) (leftY * runCube % fieldSize),
        left.z * right.z % fieldSize * run % fieldSize⟩

/-- This function doubles and adds from the highest bit down. -/
def Jacobian.scale (scalar : Nat) (point : Jacobian) : Jacobian :=
  (bits scalar).foldl
    (fun sum bit => if bit then sum.double.add point else sum.double) infinity

/-- The affine first coordinate, modulo the group order, is compared without a division. -/
def Jacobian.HasScalarX (point : Jacobian) (scalar : Nat) : Prop :=
  point.z ≠ 0 ∧
    (point.x = scalar * (point.z * point.z) % fieldSize ∨
      scalar + groupOrder < fieldSize ∧
        point.x = (scalar + groupOrder) * (point.z * point.z) % fieldSize)

instance (point : Jacobian) (scalar : Nat) : Decidable (point.HasScalarX scalar) :=
  inferInstanceAs (Decidable (_ ∧ _))

end CoinSpend.Secp256k1
