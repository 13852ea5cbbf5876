/-
This file states that both encodings of a point on the curve lead to the same point, and which
encodings lead to a point at all.
-/

import CoinSpend.Bytes.Lemmas
import CoinSpend.Proofs.Secp256k1.Field
import CoinSpend.PublicKey

namespace CoinSpend

namespace Secp256k1

/-- A point on the curve is found again by its first coordinate and the parity of the second. -/
theorem Point.ofX?_eq {point : Point} (onCurve : point.OnCurve) :
    ofX? (decide (point.y % 2 = 1)) point.x = some point := by
  have below := onCurve.2.1
  have found : (if decide (rootCandidate (curveSide point.x) % 2 = 1) = decide (point.y % 2 = 1)
      then rootCandidate (curveSide point.x)
      else (fieldSize - rootCandidate (curveSide point.x)) % fieldSize) = point.y := by
    rw [← onCurve.2.2]
    rcases rootCandidate_square below with same | ⟨positive, other⟩
    · rw [same, if_pos rfl]
    · -- The size of the field is odd, so the two roots differ in their parity.
      have odd : fieldSize % 2 = 1 := by
        decide
      have parity : ¬ decide ((fieldSize - point.y) % 2 = 1) = decide (point.y % 2 = 1) := by
        rw [decide_eq_decide]
        omega
      rw [other, if_neg parity, Nat.sub_sub_self below.le, Nat.mod_eq_of_lt below]
  rw [ofX?]
  simp only [found]
  exact if_pos onCurve

/-- The curve equation holds in the field, and no coordinate is left to be reduced. -/
theorem Point.onCurve_iff {point : Point} :
    point.OnCurve ↔ point.x < fieldSize ∧ point.y < fieldSize ∧
      (point.y : ZMod fieldSize) ^ 2 = (point.x : ZMod fieldSize) ^ 3 + 7 := by
  have equation : point.y * point.y % fieldSize = curveSide point.x ↔
      (point.y : ZMod fieldSize) ^ 2 = (point.x : ZMod fieldSize) ^ 3 + 7 := by
    rw [curveSide, ← ZMod.natCast_eq_natCast_iff']
    push_cast
    rw [pow_two, pow_succ, pow_two]
  rw [OnCurve, equation]

theorem Point.onCurve_of_ofX? {odd : Bool} {x : Nat} {point : Point}
    (found : ofX? odd x = some point) : point.OnCurve := by
  rw [ofX?] at found
  obtain ⟨onCurve, same⟩ := Option.ite_none_right_eq_some.mp found
  rwa [Option.some.inj same] at onCurve

end Secp256k1

open Secp256k1

theorem PublicKey.decode?_compressedOctets (odd : Bool) (x : Octets 32) :
    Point.decode? (compressedOctets odd x).bytes = Point.ofX? odd x.bigEndianValue := by
  have body (form : PointForm) (tagged : PointForm.ofTag? (parityTag odd) = some form) :
      Point.decode? (compressedOctets odd x).bytes = form.point? x.bytes := by
    rw [compressedOctets, Point.decode?, tagged]
    rfl
  cases odd with
  | false => rw [body (.compressed false) rfl, PointForm.point?, if_pos x.length_eq]; rfl
  | true => rw [body (.compressed true) rfl, PointForm.point?, if_pos x.length_eq]; rfl

theorem PublicKey.decode?_uncompressedOctets (x y : Octets 32) :
    Point.decode? (uncompressedOctets x y).bytes =
      Point.ofCoordinates? x.bigEndianValue y.bigEndianValue := by
  have size : (x.bytes ++ y.bytes).length = 64 := by
    rw [List.length_append, x.length_eq, y.length_eq]
  have first : (x.bytes ++ y.bytes).take 32 = x.bytes := List.take_left' x.length_eq
  have second : (x.bytes ++ y.bytes).drop 32 = y.bytes := List.drop_left' x.length_eq
  have body : Point.decode? (uncompressedOctets x y).bytes =
      PointForm.point?.both (x.bytes ++ y.bytes) := rfl
  rw [body, PointForm.point?.both, if_pos size, first, second]
  rfl

/-- Two coordinates lead to a point exactly where they are on the curve. -/
theorem PublicKey.decode?_uncompressedOctets_eq_none {x y : Octets 32} :
    Point.decode? (uncompressedOctets x y).bytes = none ↔
      ¬ Point.OnCurve ⟨x.bigEndianValue, y.bigEndianValue⟩ := by
  rw [decode?_uncompressedOctets, Point.ofCoordinates?]
  by_cases onCurve : Point.OnCurve ⟨x.bigEndianValue, y.bigEndianValue⟩
  · simp [onCurve]
  · simp [onCurve]

/-- A written point is read back. -/
theorem Secp256k1.Point.decode?_encode {point : Point} (onCurve : point.OnCurve) :
    Point.decode? point.encode.bytes = some point := by
  have x : point.x < 256 ^ 32 := Nat.lt_trans onCurve.1 (by decide)
  have y : point.y < 256 ^ 32 := Nat.lt_trans onCurve.2.1 (by decide)
  have written : point.encode = PublicKey.uncompressedOctets (Octets.bigEndian 32 point.x)
      (Octets.bigEndian 32 point.y) := rfl
  rw [written, PublicKey.decode?_uncompressedOctets, Octets.bigEndianValue_bigEndian x,
    Octets.bigEndianValue_bigEndian y]
  exact if_pos onCurve

/-- A compressed key that can be expanded is a point. -/
theorem PublicKey.exists_point_of_expand {odd : Bool} {x : Octets 32} {octets : Octets 65}
    (expanded : (PublicKey.compressed odd x).expand = .ok octets) :
    ∃ point, Point.decode? octets.bytes = some point := by
  rw [expand, decompress] at expanded
  split at expanded
  · next point found =>
      cases expanded
      rw [decode?_compressedOctets] at found
      exact ⟨point, Point.decode?_encode (Point.onCurve_of_ofX? found)⟩
  · cases expanded

/-- The short encoding of a point keeps the parity of the second coordinate. -/
def PublicKey.compressedOf (point : Point) : PublicKey :=
  .compressed (decide (point.y % 2 = 1)) (Octets.bigEndian 32 point.x)

def PublicKey.uncompressedOf (point : Point) : PublicKey :=
  .uncompressed (Octets.bigEndian 32 point.x) (Octets.bigEndian 32 point.y)

/-- Both encodings of a point on the curve expand to the same octets. -/
theorem PublicKey.expand_compressedOf {point : Point} (onCurve : point.OnCurve) :
    (compressedOf point).expand = (uncompressedOf point).expand := by
  have fits : point.x < 256 ^ 32 := Nat.lt_trans onCurve.1 (by decide)
  have decoded : Point.decode? (compressedOctets (decide (point.y % 2 = 1))
      (Octets.bigEndian 32 point.x)).bytes = some point := by
    rw [decode?_compressedOctets, Octets.bigEndianValue_bigEndian fits, Point.ofX?_eq onCurve]
  rw [compressedOf, expand, decompress, decoded]
  rfl

end CoinSpend
