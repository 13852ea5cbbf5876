/-
This file states how numbers and their bytes determine each other.
-/

import CoinSpend.Bytes
import Mathlib.Algebra.Group.Nat.Defs

namespace CoinSpend

/-- Reading gives the number back, up to the width. -/
theorem ofLittleEndian_toLittleEndian (width value : Nat) :
    ofLittleEndian (toLittleEndian width value) = value % 256 ^ width := by
  induction width generalizing value with
  | zero => simp [toLittleEndian, ofLittleEndian, Nat.mod_one]
  | succ width ih =>
      rw [toLittleEndian, ofLittleEndian, ih, Nat.pow_succ', Nat.mod_mul]
      simp

/-- A number read from bytes fits their width. -/
theorem ofLittleEndian_lt (bytes : Bytes) : ofLittleEndian bytes < 256 ^ bytes.length := by
  induction bytes with
  | nil => simp [ofLittleEndian]
  | cons byte rest ih =>
      have := byte.toNat_lt
      rw [ofLittleEndian, List.length_cons, Nat.pow_succ]
      omega

theorem ofBigEndian_toBigEndian {width value : Nat} (fits : value < 256 ^ width) :
    ofBigEndian (toBigEndian width value) = value := by
  rw [ofBigEndian, toBigEndian, List.reverse_reverse, ofLittleEndian_toLittleEndian,
    Nat.mod_eq_of_lt fits]

theorem Octets.bigEndianValue_bigEndian {size value : Nat} (fits : value < 256 ^ size) :
    (bigEndian size value).bigEndianValue = value :=
  ofBigEndian_toBigEndian fits

/-- A zero behind the digits does not count. -/
theorem ofLittleEndian_append_zero (digits : Bytes) :
    ofLittleEndian (digits ++ [0]) = ofLittleEndian digits := by
  induction digits with
  | nil => rfl
  | cons digit rest ih => rw [List.cons_append, ofLittleEndian, ofLittleEndian, ih]

/-- Zeros in front of big-endian digits do not count. -/
theorem ofBigEndian_dropZeros (digits : Bytes) :
    ofBigEndian (digits.dropWhile (· = 0)) = ofBigEndian digits := by
  induction digits with
  | nil => rfl
  | cons digit rest ih =>
      by_cases zero : digit = 0
      · rw [zero, List.dropWhile_cons_of_pos (by decide), ih, ofBigEndian, ofBigEndian,
          List.reverse_cons, ofLittleEndian_append_zero]
      · rw [List.dropWhile_cons_of_neg (by simpa using zero)]

theorem toLittleEndian_zero (width : Nat) : toLittleEndian width 0 = List.replicate width 0 := by
  induction width with
  | zero => rfl
  | succ width ih => rw [toLittleEndian, Nat.zero_div, ih, List.replicate_succ]; rfl

/-- A larger width is filled up behind the digits. -/
theorem toLittleEndian_wider (digits : Bytes) (extra : Nat) :
    toLittleEndian (digits.length + extra) (ofLittleEndian digits) =
      digits ++ List.replicate extra 0 := by
  induction digits with
  | nil =>
      rw [List.length_nil, Nat.zero_add]
      exact toLittleEndian_zero extra
  | cons digit rest ih =>
      have := digit.toNat_lt
      have low : (digit.toNat + 256 * ofLittleEndian rest) % 256 = digit.toNat := by omega
      have high : (digit.toNat + 256 * ofLittleEndian rest) / 256 = ofLittleEndian rest := by omega
      rw [List.length_cons, Nat.add_right_comm, toLittleEndian, ofLittleEndian, low, high, ih]
      simp

/-- Only the zeros in front of big-endian digits are left open by their value. -/
theorem dropZeros_eq_of_value_eq {first second : Bytes}
    (same : ofBigEndian first = ofBigEndian second) :
    first.dropWhile (· = 0) = second.dropWhile (· = 0) := by
  have wider (digits : Bytes) (extra : Nat) :
      (toBigEndian (digits.length + extra) (ofBigEndian digits)).dropWhile (· = 0) =
        digits.dropWhile (· = 0) := by
    have filled := toLittleEndian_wider digits.reverse extra
    rw [List.length_reverse] at filled
    rw [toBigEndian, ofBigEndian, filled, List.reverse_append, List.reverse_replicate,
      List.reverse_reverse, List.dropWhile_append_of_pos]
    intro digit zero
    simpa using List.eq_of_mem_replicate zero
  rw [← wider first second.length, ← wider second first.length, same, Nat.add_comm]

end CoinSpend
