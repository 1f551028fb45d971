import Mathlib.Algebra.Order.Field.Rat
import Mathlib.Tactic.FieldSimp
import Mathlib.Tactic.NormNum
import PagedReport.Number.Scalar

/-!
# Rational lengths

Layout in rational numbers is exact: it has all laws of a field with an order.  A factor that is
positive can be taken out of everything that layout compares.
-/

namespace PagedReport

instance : Scalar ℚ where
  decimal n places := n / 10 ^ places
  decidableLT := inferInstance
  decidableLE := inferInstance

namespace Scalar

theorem whole_rat (n : ℕ) : (whole n : ℚ) = n := by
  change (n : ℚ) / 10 ^ 0 = n
  rw [pow_zero, div_one]

/-- The zero that layout is written with. -/
theorem zero_rat : @OfNat.ofNat ℚ 0 (Scalar.instOfNat 0) = 0 := whole_rat 0

theorem one_rat : @OfNat.ofNat ℚ 1 (Scalar.instOfNat 1) = 1 := (whole_rat 1).trans Nat.cast_one

theorem two_rat : @OfNat.ofNat ℚ 2 (Scalar.instOfNat 2) = 2 := (whole_rat 2).trans Nat.cast_two

theorem le_larger (a b : ℚ) : b ≤ larger a b := by
  unfold larger
  split
  · exact le_refl b
  · next hless => simpa using hless

theorem larger_eq_left {a b : ℚ} (h : b ≤ a) : larger a b = a := by
  rw [larger, if_neg (not_lt.mpr h), if_pos (beq_self_eq_true a)]

variable {k : ℚ} (hk : 0 < k)

include hk

theorem mul_nonpos_iff_left (a : ℚ) : a * k ≤ 0 ↔ a ≤ 0 := by
  rw [← not_lt, ← not_lt, mul_pos_iff_of_pos_right hk]

theorem mul_beq_zero (a : ℚ) : (a * k == 0) = (a == 0) := by
  rw [Bool.eq_iff_iff, beq_iff_eq, beq_iff_eq, mul_eq_zero]
  exact or_iff_left hk.ne'

theorem larger_mul (a b : ℚ) : larger (a * k) (b * k) = larger a b * k := by
  unfold larger
  by_cases hab : a < b
  · rw [if_pos hab, if_pos ((mul_lt_mul_iff_left₀ hk).mpr hab)]
  · rw [if_neg hab, if_neg (fun h ↦ hab ((mul_lt_mul_iff_left₀ hk).mp h))]
    simp

end Scalar

end PagedReport
