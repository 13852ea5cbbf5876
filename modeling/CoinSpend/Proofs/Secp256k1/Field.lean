/-
This file states that squaring and multiplying gives powers, and certifies with it that the field
size is a prime.
-/

import Mathlib.NumberTheory.LegendreSymbol.Basic
import Mathlib.NumberTheory.LucasPrimality
import Mathlib.Tactic.NormNum.Prime
import CoinSpend.Secp256k1.Field

namespace CoinSpend.Secp256k1

/-- Reading bits from the highest one down gives back the number that they were taken from. -/
theorem foldl_testBit (count value : Nat) :
    ((List.range count).reverse.map value.testBit).foldl
      (fun number bit => 2 * number + bit.toNat) 0 = value % 2 ^ count := by
  -- The lowest bit is read last, and those before it are the bits of half the number.
  induction count generalizing value with
  | zero => simp [Nat.mod_one]
  | succ count ih =>
      have upper : (List.range count).reverse.map (fun index => value.testBit (index + 1)) =
          (List.range count).reverse.map (value / 2).testBit :=
        List.map_congr_left fun index _ => Nat.testBit_succ value index
      have lowest : (value.testBit 0).toNat = value % 2 := by
        rw [Nat.testBit_zero]
        rcases Nat.mod_two_eq_zero_or_one value with even | odd
        · rw [even]
          rfl
        · rw [odd]
          rfl
      rw [List.range_succ_eq_map, List.reverse_cons, ← List.map_reverse, List.map_append,
        List.map_map, List.foldl_append]
      change 2 * List.foldl _ 0 ((List.range count).reverse.map
        fun index => value.testBit (index + 1)) + (value.testBit 0).toNat = _
      rw [upper, ih, lowest, Nat.pow_succ', Nat.mod_mul, Nat.add_comm]

/-- A step doubles the exponent and adds the bit to it. -/
theorem power_step (modulus base exponent : Nat) (bit : Bool) :
    (if bit then
        base ^ exponent % modulus * (base ^ exponent % modulus) % modulus * base % modulus
      else base ^ exponent % modulus * (base ^ exponent % modulus) % modulus) =
      base ^ (2 * exponent + bit.toNat) % modulus := by
  have squared : base ^ exponent % modulus * (base ^ exponent % modulus) % modulus =
      base ^ (2 * exponent) % modulus := by
    rw [← Nat.mul_mod, ← Nat.pow_add, ← Nat.two_mul]
  cases bit with
  | false => exact squared
  | true =>
      rw [if_pos rfl, squared, Nat.mod_mul_mod, ← Nat.pow_succ]
      rfl

theorem power_eq {modulus exponent : Nat} (base : Nat) (proper : 1 < modulus)
    (fits : exponent < 2 ^ 256) : power modulus base exponent = base ^ exponent % modulus := by
  have start : base ^ 0 % modulus = 1 := by
    rw [Nat.pow_zero, Nat.mod_eq_of_lt proper]
  have read : (bits exponent).foldl (fun number bit => 2 * number + bit.toNat) 0 = exponent := by
    rw [bits, foldl_testBit, Nat.mod_eq_of_lt fits]
  calc power modulus base exponent
      = (bits exponent).foldl (fun product bit =>
          if bit then product * product % modulus * base % modulus
          else product * product % modulus) (base ^ 0 % modulus) := by rw [start]; rfl
    _ = base ^ ((bits exponent).foldl (fun number bit => 2 * number + bit.toNat) 0) % modulus :=
        List.foldl_hom (fun number => base ^ number % modulus) (power_step modulus base)
    _ = base ^ exponent % modulus := by rw [read]

/-- A power is one as a residue exactly when it is computed to be one. -/
theorem power_eq_one_iff {number exponent : Nat} (root : Nat) (proper : 1 < number)
    (fits : exponent < 2 ^ 256) :
    power number root exponent = 1 ↔ (root : ZMod number) ^ exponent = 1 := by
  have one : ((1 : Nat) : ZMod number) = 1 := Nat.cast_one
  rw [power_eq root proper fits, ← one, ← Nat.cast_pow, ZMod.natCast_eq_natCast_iff',
    Nat.one_mod_eq_one.mpr (Nat.ne_of_gt proper)]

/-- A certificate names a number, a residue that is to have the largest order and the prime factors
of that order. -/
structure Certificate where
  number : Nat
  root : Nat
  factors : List Nat

/-- The residue has the order one less than the number, and the factors of that are known. -/
def Certificate.Holds (known : List Nat) (certificate : Certificate) : Prop :=
  1 < certificate.number ∧ certificate.number ≤ 2 ^ 256 ∧
    certificate.factors.prod = certificate.number - 1 ∧
    power certificate.number certificate.root (certificate.number - 1) = 1 ∧
    ∀ factor ∈ certificate.factors, factor ∈ known ∧
      power certificate.number certificate.root ((certificate.number - 1) / factor) ≠ 1

instance (known : List Nat) (certificate : Certificate) : Decidable (certificate.Holds known) :=
  inferInstanceAs (Decidable (_ ∧ _))

theorem Certificate.Holds.prime {known : List Nat} {certificate : Certificate}
    (holds : certificate.Holds known) (primes : ∀ factor ∈ known, factor.Prime) :
    certificate.number.Prime := by
  obtain ⟨proper, fits, product, returns, avoids⟩ := holds
  have below {exponent : Nat} (smaller : exponent ≤ certificate.number - 1) :
      exponent < 2 ^ 256 := by
    omega
  apply lucas_primality certificate.number (certificate.root : ZMod certificate.number)
  · exact (power_eq_one_iff _ proper (below le_rfl)).mp returns
  · intro factor prime divides one
    rw [← product] at divides
    obtain ⟨member, listed, divided⟩ := (Prime.dvd_prod_iff prime.prime).mp divides
    obtain ⟨certified, other⟩ := avoids member listed
    rw [(Nat.prime_dvd_prime_iff_eq prime (primes member certified)).mp divided] at one
    exact other ((power_eq_one_iff _ proper (below (Nat.div_le_self _ _))).mpr one)

/-- Every certificate may use the numbers of those before it. -/
def Chained : List Nat → List Certificate → Prop
  | _, [] => True
  | known, certificate :: rest =>
      certificate.Holds known ∧ Chained (certificate.number :: known) rest

instance decidableChained : (known : List Nat) → (certificates : List Certificate) →
    Decidable (Chained known certificates)
  | _, [] => inferInstanceAs (Decidable True)
  | known, certificate :: rest =>
      have := decidableChained (certificate.number :: known) rest
      inferInstanceAs (Decidable (_ ∧ _))

theorem Chained.primes {known : List Nat} {certificates : List Certificate}
    (chained : Chained known certificates) (primes : ∀ factor ∈ known, factor.Prime) :
    ∀ certificate ∈ certificates, certificate.number.Prime := by
  induction certificates generalizing known with
  | nil =>
      intro certificate listed
      cases listed
  | cons first rest ih =>
      have prime := chained.1.prime primes
      intro certificate listed
      rcases List.mem_cons.mp listed with same | later
      · rw [same]
        exact prime
      · exact ih chained.2 (List.forall_mem_cons.mpr ⟨prime, primes⟩) certificate later

def smallPrimes : List Nat :=
  [2, 3, 5, 7, 11, 29, 31, 53, 971, 1373, 1627, 2621, 2657, 4423, 5323, 7723, 13441, 20113, 24809,
    41201, 96557]

theorem prime_of_mem_smallPrimes : ∀ factor ∈ smallPrimes, factor.Prime := by
  simp only [smallPrimes, List.forall_mem_cons]
  norm_num

/-- The certificates lead from the small primes to the field size. -/
def fieldCertificates : List Certificate :=
  [⟨107590001, 3, [2, 2, 2, 2, 5, 5, 5, 5, 7, 29, 53]⟩,
    ⟨1206781, 10, [2, 2, 3, 5, 20113]⟩,
    ⟨7240687, 3, [2, 3, 1206781]⟩,
    ⟨13331831, 13, [2, 5, 971, 1373]⟩,
    ⟨173378833005251801, 6, [2, 2, 2, 5, 5, 2621, 24809, 13331831]⟩,
    ⟨22149492674086928081353, 5, [2, 2, 2, 3, 5323, 173378833005251801]⟩,
    ⟨132896956044521568488119, 6, [2, 3, 22149492674086928081353]⟩,
    ⟨255515944373312847190720520512484175977, 3,
      [2, 2, 2, 7, 7, 11, 1627, 2657, 4423, 41201, 96557, 107590001, 7240687]⟩,
    ⟨205115282021455665897114700593932402728804164701536103180137503955397371, 10,
      [2, 3, 5, 29, 29, 31, 7723, 255515944373312847190720520512484175977,
        132896956044521568488119]⟩,
    ⟨fieldSize, 3,
      [2, 3, 7, 13441,
        205115282021455665897114700593932402728804164701536103180137503955397371]⟩]

theorem fieldCertificates_chained : Chained smallPrimes fieldCertificates := by
  decide +kernel

theorem fieldSize_prime : fieldSize.Prime :=
  fieldCertificates_chained.primes prime_of_mem_smallPrimes _ (List.mem_of_getLast? rfl)

/-- Modulo a prime that is three modulo four, this power of a square is one of its two roots. -/
theorem root_of_square {prime root : Nat} [Fact prime.Prime] (three : prime % 4 = 3)
    (below : root < prime) :
    (root * root % prime) ^ ((prime + 1) / 4) % prime = root ∨
      0 < root ∧ (root * root % prime) ^ ((prime + 1) / 4) % prime = prime - root := by
  have exponents : 2 * ((prime + 1) / 4) = prime / 2 + 1 := by
    omega
  have computed : (root * root % prime) ^ ((prime + 1) / 4) % prime =
      root ^ (prime / 2 + 1) % prime := by
    rw [← Nat.pow_mod, ← Nat.pow_two, ← Nat.pow_mul, exponents]
  rw [computed]
  by_cases zero : root = 0
  · left
    rw [zero, Nat.zero_pow (Nat.succ_pos _), Nat.zero_mod]
  · have positive := Nat.pos_of_ne_zero zero
    have invertible : (root : ZMod prime) ≠ 0 := by
      intro vanishes
      rw [ZMod.natCast_eq_zero_iff] at vanishes
      exact zero (Nat.eq_zero_of_dvd_of_lt vanishes below)
    have residue : ((root ^ (prime / 2 + 1) : Nat) : ZMod prime) = root ^ (prime / 2) * root := by
      rw [Nat.cast_pow, pow_succ]
    rcases ZMod.pow_div_two_eq_neg_one_or_one prime invertible with one | minusOne
    · left
      rwa [one, one_mul, ZMod.natCast_eq_natCast_iff', Nat.mod_eq_of_lt below] at residue
    · right
      have negative : ((prime - root : Nat) : ZMod prime) = -root := by
        rw [Nat.cast_sub below.le, ZMod.natCast_self, zero_sub]
      have smaller : prime - root < prime := by
        omega
      rw [minusOne, neg_one_mul, ← negative, ZMod.natCast_eq_natCast_iff',
        Nat.mod_eq_of_lt smaller] at residue
      exact ⟨positive, residue⟩

instance : Fact fieldSize.Prime := ⟨fieldSize_prime⟩

theorem rootCandidate_square {root : Nat} (below : root < fieldSize) :
    rootCandidate (root * root % fieldSize) = root ∨
      0 < root ∧ rootCandidate (root * root % fieldSize) = fieldSize - root := by
  rw [rootCandidate, power_eq _ fieldSize_prime.one_lt (by decide)]
  exact root_of_square (by decide) below

end CoinSpend.Secp256k1
