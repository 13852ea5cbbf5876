/-
This file holds the two prime sizes of secp256k1 and arithmetic modulo them.
-/

import CoinSpend.Bytes

namespace CoinSpend.Secp256k1

/-- The coordinates of points are numbers modulo this prime. -/
def fieldSize : Nat := 0xfffffffffffffffffffffffffffffffffffffffffffffffffffffffefffffc2f

/-- The scalars are numbers modulo this prime, which is the number of points. -/
def groupOrder : Nat := 0xfffffffffffffffffffffffffffffffebaaedce6af48a03bbfd25e8cd0364141

/-- A signature is low when its second number is not above this bound. -/
def halfOrder : Nat := (groupOrder - 1) / 2

/-- The bits of a number below `2 ^ 256`, most significant first. -/
def bits (value : Nat) : List Bool := (List.range 256).reverse.map value.testBit

/-- This function squares and multiplies from the highest bit down. -/
def power (modulus base exponent : Nat) : Nat :=
  (bits exponent).foldl
    (fun product bit =>
      let square := product * product % modulus
      if bit then square * base % modulus else square) 1

/-- The difference of two field elements. -/
def minus (left right : Nat) : Nat := (left + (fieldSize - right)) % fieldSize

/-- This power is a square root wherever there is one. -/
def rootCandidate (square : Nat) : Nat := power fieldSize square ((fieldSize + 1) / 4)

/-- The inverse of a scalar, by Fermat. -/
def scalarInverse (scalar : Nat) : Nat := power groupOrder scalar (groupOrder - 2)

end CoinSpend.Secp256k1
