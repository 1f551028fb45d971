import Mathlib.Data.Nat.Cast.Order.Field
import Mathlib.Tactic.FieldSimp
import Mathlib.Tactic.Linarith
import Mathlib.Tactic.Positivity
import Mathlib.Tactic.Ring
import PagedReport.Number.Shortest
import PagedReport.Proofs.Number.Rational

/-!
# How many digits a shortest decimal has

The search for a shortest decimal walks over eighteen grids from the leading digit down, so what it
finds on one of them has at most eighteen digits, or is a power of ten.
-/

namespace PagedReport

/-- The number that a decimal stands for. -/
def DecimalForm.value (d : DecimalForm) : ℚ := d.digits * 10 ^ d.exponent

/-! ## Fractions -/

/-- A fraction is its whole part and a rest below one, which the remainder compares with a half. -/
theorem exists_part (n : ℕ) {d : ℕ} (hd : 0 < d) :
    ∃ t : ℚ, (n : ℚ) / d = (n / d : ℕ) + t ∧ 0 ≤ t ∧ t < 1 ∧ (2 * (n % d) < d ↔ t < 1 / 2) ∧
      (d < 2 * (n % d) ↔ 1 / 2 < t) := by
  have hd' : (0 : ℚ) < d := by exact_mod_cast hd
  refine ⟨(n % d : ℕ) / d, ?_, by positivity, ?_, ?_, ?_⟩
  · field_simp
    exact_mod_cast (Nat.div_add_mod n d).symm
  · rw [div_lt_one hd']
    exact_mod_cast Nat.mod_lt n hd
  · rw [div_lt_div_iff₀ hd' two_pos]
    norm_cast
    omega
  · rw [div_lt_div_iff₀ two_pos hd']
    norm_cast
    omega

theorem mul_pow_div (b num den k : ℕ) :
    ((num * b ^ k : ℕ) : ℚ) / den = num / den * b ^ Int.ofNat k := by
  rw [Int.ofNat_eq_natCast, zpow_natCast, Nat.cast_mul, Nat.cast_pow, mul_div_right_comm]

theorem div_mul_pow (b num den k : ℕ) :
    (num : ℚ) / (den * b ^ (k + 1) : ℕ) = num / den * b ^ Int.negSucc k := by
  rw [zpow_negSucc, Nat.cast_mul, Nat.cast_pow, div_mul_eq_div_div, div_eq_mul_inv _ ((b : ℚ) ^ _)]

theorem scaleByPow10_div (num den : ℕ) (e : ℤ) :
    ((scaleByPow10 num den e).1 : ℚ) / (scaleByPow10 num den e).2 = num / den * 10 ^ e := by
  rw [← Nat.cast_ofNat (R := ℚ)]
  cases e with
  | ofNat k => exact mul_pow_div 10 num den k
  | negSucc k => exact div_mul_pow 10 num den k

theorem scaleByPow10_pos (num : ℕ) {den : ℕ} (hden : 0 < den) (e : ℤ) :
    0 < (scaleByPow10 num den e).2 := by
  cases e with
  | ofNat k => exact hden
  | negSucc k => exact Nat.mul_pos hden (Nat.pow_pos (by decide))

theorem BinaryLayout.scaleByPow2_div (num den : ℕ) (e : ℤ) :
    ((scaleByPow2 num den e).1 : ℚ) / (scaleByPow2 num den e).2 = num / den * 2 ^ e := by
  rw [← Nat.cast_ofNat (R := ℚ)]
  cases e with
  | ofNat k => exact mul_pow_div 2 num den k
  | negSucc k => exact div_mul_pow 2 num den k

theorem BinaryLayout.scaleByPow2_pos (num : ℕ) {den : ℕ} (hden : 0 < den) (e : ℤ) :
    0 < (scaleByPow2 num den e).2 := by
  cases e with
  | ofNat k => exact hden
  | negSucc k => exact Nat.mul_pos hden (Nat.pow_pos (by decide))

/-- The denominator is the same for all numerators. -/
theorem BinaryLayout.scaleByPow2_common (n : ℕ) (e : ℤ) :
    ((scaleByPow2 n 1 e).1 : ℚ) / (scaleByPow2 1 1 e).2 = n * 2 ^ e := by
  have hcommon : (scaleByPow2 1 1 e).2 = (scaleByPow2 n 1 e).2 := by cases e <;> rfl
  rw [hcommon, scaleByPow2_div, Nat.cast_one, div_one]

/-! ## Lengths -/

theorem lt_pow_decimalLength (n : ℕ) : n < 10 ^ decimalLength n :=
  (Nat.length_toDigits_le_iff (by decide) Nat.length_toDigits_pos).mp le_rfl

theorem pow_decimalLength_le {n : ℕ} (hn : 0 < n) : 10 ^ (decimalLength n - 1) ≤ n := by
  rcases Nat.eq_zero_or_pos (decimalLength n - 1) with hone | hmore
  · rw [hone]
    exact hn
  · by_contra hlt
    have hlength := (Nat.length_toDigits_le_iff (by decide) hmore).mpr (not_le.mp hlt)
    unfold decimalLength at hlength hmore
    omega

theorem lt_leadingExponent (num : ℕ) {den : ℕ} (hden : 0 < den) :
    (num : ℚ) / den < 10 ^ (leadingExponent num den + 1) := by
  have hden' : (0 : ℚ) < den := by exact_mod_cast hden
  unfold leadingExponent
  split
  · next hle =>
      have hlt : num < 10 ^ decimalLength (num / den) * den :=
        (Nat.div_lt_iff_lt_mul hden).mp (lt_pow_decimalLength _)
      rw [sub_add_cancel, zpow_natCast, div_lt_iff₀ hden']
      exact_mod_cast hlt
  · next hlt =>
      generalize hlength : decimalLength ((den - 1) / num) = length
      have hpos : 0 < length := hlength ▸ Nat.length_toDigits_pos
      have hmul : num * 10 ^ (length - 1) < den := by
        rcases Nat.eq_zero_or_pos num with rfl | hnum
        · rwa [Nat.zero_mul]
        · have hpow := pow_decimalLength_le (Nat.div_pos (by omega : num ≤ den - 1) hnum)
          rw [hlength, Nat.le_div_iff_mul_le hnum] at hpow
          rw [Nat.mul_comm]
          omega
      have hexponent : -(length : ℤ) + 1 = -((length - 1 : ℕ) : ℤ) := by omega
      rw [hexponent, zpow_neg, zpow_natCast, div_lt_iff₀ hden', inv_mul_eq_div,
        lt_div_iff₀ (by positivity)]
      exact_mod_cast hmul

theorem le_leadingExponent {num den : ℕ} (hnum : 0 < num) (hden : 0 < den) :
    (10 : ℚ) ^ leadingExponent num den ≤ num / den := by
  have hnum' : (0 : ℚ) < num := by exact_mod_cast hnum
  have hden' : (0 : ℚ) < den := by exact_mod_cast hden
  unfold leadingExponent
  split
  · next hle =>
      have hpos : 0 < decimalLength (num / den) := Nat.length_toDigits_pos
      have hpow : 10 ^ (decimalLength (num / den) - 1) * den ≤ num :=
        (Nat.le_div_iff_mul_le hden).mp (pow_decimalLength_le (Nat.div_pos hle hden))
      rw [← Nat.cast_pred hpos, zpow_natCast, le_div_iff₀ hden']
      exact_mod_cast hpow
  · next hlt =>
      have hpow : den - 1 < 10 ^ decimalLength ((den - 1) / num) * num :=
        (Nat.div_lt_iff_lt_mul hnum).mp (lt_pow_decimalLength _)
      have hmul : den ≤ num * 10 ^ decimalLength ((den - 1) / num) := by
        rw [Nat.mul_comm]
        omega
      rw [zpow_neg, zpow_natCast, le_div_iff₀ hden', inv_mul_le_iff₀ (by positivity), mul_comm]
      exact_mod_cast hmul

namespace DecimalForm

theorem strip_value (n : ℕ) (e : ℤ) : (strip n e).value = n * 10 ^ e := by
  fun_induction strip n e with
  | case1 => simp [value]
  | case2 n e hn hten ih =>
      obtain ⟨k, rfl⟩ := Nat.dvd_of_mod_eq_zero hten
      rw [ih, Nat.mul_div_cancel_left k (by decide), zpow_add_one₀ (by norm_num)]
      push_cast
      ring
  | case3 => rfl

/-- A number with no zero at its end is no power of ten above one. -/
theorem strip_digits_ne_pow (n : ℕ) (e : ℤ) (k : ℕ) : (strip n e).digits ≠ 10 ^ (k + 1) := by
  fun_induction strip n e with
  | case1 => exact (Nat.pow_pos (by decide)).ne
  | case2 n e hn hten ih => exact ih
  | case3 n e hn hten =>
      intro heq
      dsimp only at heq
      omega

theorem strip_digits_le (n : ℕ) (e : ℤ) : (strip n e).digits ≤ n := by
  fun_induction strip n e with
  | case1 => exact Nat.zero_le _
  | case2 n e hn hten ih => omega
  | case3 => exact le_rfl

end DecimalForm

/-! ## The search -/

namespace ReadBack

theorem denominator_pos (l : BinaryLayout) (m : ℕ) (q : ℤ) : 0 < (of l m q).denominator :=
  BinaryLayout.scaleByPow2_pos 1 Nat.one_pos (q - 2)

variable {r : ReadBack} (hr : 0 < r.denominator)

include hr

theorem onGrid_le {n d : ℕ} (h : r.onGrid (leadingExponent r.value r.denominator - n) = some d) :
    d ≤ 10 ^ (n + 1) := by
  generalize hscaled : scaleByPow10 r.value r.denominator
    (-(leadingExponent r.value r.denominator - n)) = scaled
  have hbelow : scaled.1 / scaled.2 < 10 ^ (n + 1) := by
    have hvalue : ((scaled.1 / scaled.2 : ℕ) : ℚ) < 10 ^ (n + 1) := by
      calc ((scaled.1 / scaled.2 : ℕ) : ℚ)
          ≤ scaled.1 / scaled.2 := Nat.cast_div_le
        _ = r.value / r.denominator * 10 ^ (-(leadingExponent r.value r.denominator - n)) := by
          rw [← hscaled, scaleByPow10_div]
        _ < 10 ^ (leadingExponent r.value r.denominator + 1) *
              10 ^ (-(leadingExponent r.value r.denominator - n)) := by
          exact mul_lt_mul_of_pos_right (lt_leadingExponent _ hr) (zpow_pos (by norm_num) _)
        _ = 10 ^ (n + 1) := by
          rw [← zpow_add₀ (by norm_num), ← zpow_natCast]
          congr 1
          push_cast
          ring
    exact_mod_cast hvalue
  have hnear : d = scaled.1 / scaled.2 ∨ d = scaled.1 / scaled.2 + 1 := by
    rw [onGrid, hscaled] at h
    dsimp only at h
    split at h
    · rw [← Option.some.inj h]
      split
      · exact .inl rfl
      · exact .inr rfl
    · exact .inl (Option.some.inj h).symm
    · exact .inr (Option.some.inj h).symm
    · cases h
  omega

theorem search_digits_le {tries n : ℕ} {d : DecimalForm}
    (h : r.search (leadingExponent r.value r.denominator) tries n = some d) :
    d.digits ≤ 10 ^ (n + tries) := by
  induction tries generalizing n with
  | zero => cases h
  | succ tries ih =>
      rw [search] at h
      split at h
      · next digits hgrid =>
          rw [← Option.some.inj h]
          exact (onGrid_le hr hgrid).trans (Nat.pow_le_pow_right (by decide) (by omega))
      · have hrest := ih h
        rwa [Nat.add_right_comm, Nat.add_assoc] at hrest

end ReadBack

/-- A decimal that is no integer has digits for a number of at most `10 ^ 18`. -/
theorem shortest_digits_le (l : BinaryLayout) (m : ℕ) (q : ℤ) (h : (shortest l m q).exponent < 0) :
    (shortest l m q).digits ≤ 10 ^ 18 := by
  unfold shortest at h ⊢
  dsimp only at h ⊢
  split at h
  · next d hsearch =>
      exact (DecimalForm.strip_digits_le _ _).trans
        (ReadBack.search_digits_le (ReadBack.denominator_pos l m q) hsearch)
  · exact absurd h (lt_irrefl 0)

end PagedReport
