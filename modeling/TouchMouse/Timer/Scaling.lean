import Mathlib.Data.Nat.Basic

/-!
# Multiply, then divide, in a word

A count is scaled by a ratio as `count * scale / unit`. In a word the product
wraps before it is divided; the quotient is still the exact one only if the
product did not wrap, provided the unit fits the word.
-/

namespace Scaling

/-- Unsigned: what is left of the product modulo `m`. -/
theorem mod_div_eq_div_iff {p m d : Nat} (hd : 0 < d) (hdm : d ≤ m) : p % m / d = p / d ↔ p < m := by
  constructor
  · intro h
    by_contra hwrapped
    have hle : p % m + d ≤ p := by
      have hpos : 1 ≤ p / m := (Nat.one_le_div_iff (by omega)).2 (Nat.not_lt.1 hwrapped)
      have hmul : m * 1 ≤ m * (p / m) := Nat.mul_le_mul_left m hpos
      have hsplit := Nat.mod_add_div p m
      omega
    have hquotient : p % m / d + 1 ≤ p / d := by
      rw [← Nat.add_div_right _ hd]
      exact Nat.div_le_div_right hle
    omega
  · intro h
    rw [Nat.mod_eq_of_lt h]

/-- Signed, with division towards zero: what is left of the product in the
range of `2 * h` values around zero. -/
theorem bmod_tdiv_eq_div_iff {p h d : Nat} (hd : 0 < d) (hdh : d ≤ h) :
    ((p : Int).bmod (2 * h)).tdiv d = ((p / d : Nat) : Int) ↔ p < h := by
  have hresidue := Nat.mod_lt p (show 0 < 2 * h by omega)
  have hcases := Int.bmod_eq_emod p (2 * h)
  rw [← Int.natCast_emod] at hcases
  constructor
  · intro heq
    by_contra hwrapped
    have hpos : 1 ≤ p / d := (Nat.one_le_div_iff hd).2 (by omega)
    by_cases hneg : (p : Int).bmod (2 * h) < 0
    · -- the quotient is not positive
      have hnonneg := Int.tdiv_nonneg (Int.neg_nonneg_of_nonpos (Int.le_of_lt hneg)) (Int.natCast_nonneg d)
      rw [Int.neg_tdiv] at hnonneg
      omega
    · -- the quotient is that of a residue
      have hmod : (p : Int).bmod (2 * h) = ((p % (2 * h) : Nat) : Int) := by
        split at hcases <;> omega
      rw [hmod, ← Int.ofNat_tdiv, Int.natCast_inj, mod_div_eq_div_iff hd (by omega)] at heq
      rw [hmod, Nat.mod_eq_of_lt heq] at hcases
      split at hcases <;> omega
  · intro hlt
    rw [Int.bmod_eq_of_le (by omega) (by omega), ← Int.ofNat_tdiv]

theorem toNat_mul_of_lt {a b : UInt64} (h : a.toNat * b.toNat < 18446744073709551616) :
    (a * b).toNat = a.toNat * b.toNat := by
  rw [UInt64.toNat_mul]
  exact Nat.mod_eq_of_lt h

/-- In an unsigned word of 64 bits. -/
theorem toNat_mul_div_iff (count scale unit : UInt64) (hunit : 0 < unit.toNat) :
    (count * scale / unit).toNat = count.toNat * scale.toNat / unit.toNat ↔
      count.toNat * scale.toNat < 18446744073709551616 := by
  rw [UInt64.toNat_div, UInt64.toNat_mul]
  exact mod_div_eq_div_iff hunit (Nat.le_of_lt unit.toNat_lt)

/-- A signed word cast to an unsigned one shows a value of 63 bits exactly if
it is that value. -/
theorem toNat_toUInt64_eq_iff (x : Int64) {n : Nat} (hn : n < 9223372036854775808) :
    x.toUInt64.toNat = n ↔ x.toInt = n := by
  have hlt := x.toUInt64.toNat_lt
  have hcond : x.toInt = if 2 * x.toUInt64.toNat < 18446744073709551616 then (x.toUInt64.toNat : Int)
      else x.toUInt64.toNat - 18446744073709551616 := BitVec.toInt_eq_toNat_cond x.toBitVec
  rw [hcond]
  split <;> omega

/-- In a signed word of 64 bits, cast to an unsigned one at the end. -/
theorem toNat_mul_div_signed_iff {count scale unit : Int64} (hcount : 0 ≤ count.toInt) (hscale : 0 ≤ scale.toInt)
    (hunit : 0 < unit.toInt) (hexact : count.toInt.toNat * scale.toInt.toNat / unit.toInt.toNat < 9223372036854775808) :
    (count * scale / unit).toUInt64.toNat = count.toInt.toNat * scale.toInt.toNat / unit.toInt.toNat ↔
      count.toInt.toNat * scale.toInt.toNat < 9223372036854775808 := by
  have hne : unit ≠ -1 := by
    rintro rfl
    exact absurd hunit (by decide)
  have hlt := unit.toInt_lt
  rw [toNat_toUInt64_eq_iff _ hexact, Int64.toInt_div_of_ne_right _ _ hne, Int64.toInt_mul]
  have hproduct : count.toInt * scale.toInt = ((count.toInt.toNat * scale.toInt.toNat : Nat) : Int) := by
    rw [Int.natCast_mul, Int.toNat_of_nonneg hcount, Int.toNat_of_nonneg hscale]
  rw [hproduct]
  have := bmod_tdiv_eq_div_iff (p := count.toInt.toNat * scale.toInt.toNat) (h := 9223372036854775808)
    (d := unit.toInt.toNat) (by omega) (by omega)
  rw [Int.toNat_of_nonneg (Int.le_of_lt hunit)] at this
  exact this

end Scaling
