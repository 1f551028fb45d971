import PagedReport.Proofs.Number.DoubleWords
import PagedReport.Proofs.Number.Rounding

/-!
# Integers as doubles

Up to `2 ^ 53` every integer is a double, and the shortest decimal that is read as this double is
the integer itself: one with fewer digits would have to be another integer.  So an integer is
formatted as its double is.
-/

namespace PagedReport

namespace BinaryLayout

/-- A natural number in the form of a double.  The last one is even and has a unit of two. -/
structure Whole (n m : ℕ) (q : ℤ) : Prop where
  canonical : double.Canonical m q
  finite : double.word m q < double.infinity
  value : (m : ℚ) * 2 ^ q = n
  unit : q ≤ 0 ∨ n = 2 ^ 53 ∧ q = 1

variable {m n : ℕ} {q : ℤ}

theorem whole_zero : Whole 0 0 double.leastExponent := by
  refine ⟨⟨le_rfl, by norm_num [hidden, double], le_rfl, ?_⟩, by decide, by simp, .inl (by decide)⟩
  exact fun hlt ↦ absurd hlt (lt_irrefl _)

theorem whole_last : Whole (2 ^ 53) (2 ^ 52) 1 := by
  refine ⟨⟨by positivity, by norm_num [hidden, double], by decide, ?_⟩, by decide, by norm_num,
    .inr ⟨rfl, rfl⟩⟩
  exact fun _ ↦ by norm_num [hidden, double]

/-- The leading bit moves to the place of the hidden one. -/
theorem whole_between (hn : 0 < n) (hlt : n < 2 ^ 53) :
    Whole n (n * 2 ^ (52 - n.log2)) (n.log2 - 52) := by
  have hlog : n.log2 < 53 := (Nat.log2_lt hn.ne').mpr hlt
  have hfull : 2 ^ 52 = 2 ^ n.log2 * 2 ^ (52 - n.log2) := by
    rw [← Nat.pow_add, Nat.add_sub_cancel' (by omega)]
  have hlow : 2 ^ 52 ≤ n * 2 ^ (52 - n.log2) := by
    rw [hfull]
    exact Nat.mul_le_mul_right _ (Nat.log2_self_le hn.ne')
  have hhigh : n * 2 ^ (52 - n.log2) < 2 * 2 ^ 52 := by
    rw [hfull, ← Nat.mul_assoc, ← Nat.pow_succ']
    exact Nat.mul_lt_mul_of_pos_right Nat.lt_log2_self (Nat.two_pow_pos _)
  have hhidden : double.hidden = 2 ^ 52 := rfl
  have hleast : double.leastExponent = -1074 := by decide
  refine ⟨⟨by positivity, ?_, by omega, fun _ ↦ ?_⟩, ?_, ?_, .inl (by omega)⟩
  · rw [hhidden]
    exact_mod_cast hhigh
  · rw [hhidden]
    exact_mod_cast hlow
  · have hinfinity : double.infinity = 2047 * 2 ^ 52 := rfl
    rw [word, hleast, hhidden, hinfinity]
    omega
  · have hexponent : ((52 - n.log2 : ℕ) : ℤ) + (n.log2 - 52) = 0 := by omega
    rw [Nat.cast_mul, Nat.cast_pow, Nat.cast_ofNat, mul_assoc, ← zpow_natCast,
      ← zpow_add₀ two_ne_zero, hexponent, zpow_zero, mul_one]

theorem exists_whole (h : n ≤ 2 ^ 53) : ∃ m q, Whole n m q := by
  rcases Nat.eq_zero_or_pos n with rfl | hn
  · exact ⟨_, _, whole_zero⟩
  · rcases Nat.eq_or_lt_of_le h with rfl | hlt
    · exact ⟨_, _, whole_last⟩
    · exact ⟨_, _, whole_between hn hlt⟩

namespace Whole

theorem eq_zero_iff (h : Whole n m q) : m = 0 ↔ n = 0 := by
  have hunit : (0 : ℚ) < 2 ^ q := zpow_pos two_pos q
  rw [← @Nat.cast_eq_zero ℚ _ _ n, ← h.value, mul_eq_zero, or_iff_left hunit.ne', Nat.cast_eq_zero]

theorem pos (h : Whole n m q) (hn : 0 < n) : 0 < m :=
  Nat.pos_of_ne_zero (mt h.eq_zero_iff.mp hn.ne')

theorem nearest_eq (h : Whole n m q) {num den : ℕ} (hden : 0 < den)
    (heq : (num : ℚ) / den = n) : double.nearest num den = double.word m q := by
  rcases Nat.eq_zero_or_pos n with rfl | hn
  · have hm : m = 0 := h.eq_zero_iff.mpr rfl
    have hnum : num = 0 := by
      rw [Nat.cast_zero, div_eq_zero_iff, Nat.cast_eq_zero, Nat.cast_eq_zero] at heq
      exact heq.resolve_right hden.ne'
    subst hm hnum
    exact h.canonical.word_zero.symm
  · have hm := h.pos hn
    have hnum : 0 < num := by
      rw [Nat.pos_iff_ne_zero]
      rintro rfl
      rw [Nat.cast_zero, zero_div] at heq
      exact hn.ne (Nat.cast_injective heq)
    refine (nearest_eq_iff rfl hm h.canonical h.finite hnum hden).mpr ?_
    rw [heq, ← h.value]
    exact ReadBack.reads_of double q hm le_rfl (by linarith)

/-- What is read as a whole number is near to it. -/
theorem near (h : Whole n m q) (hn : 0 < n) {x : ℚ} (hx : (ReadBack.of double m q).Reads x) :
    (n : ℚ) - 1 / 2 ≤ x ∧ (x ≤ n + 1 / 2 ∨ n = 2 ^ 53 ∧ x ≤ n + 1) := by
  have hunit : (0 : ℚ) < 2 ^ q := zpow_pos two_pos q
  rw [← div_mul_cancel₀ x hunit.ne', ReadBack.reads_of_iff double q (h.pos hn)] at hx
  obtain ⟨hlow, hhigh⟩ := hx.bounds
  have hvalue := h.value
  have hhigh' : x ≤ n + 1 / 2 * 2 ^ q := by
    rwa [div_le_iff₀ hunit, add_mul, hvalue] at hhigh
  rcases h.unit with hq | ⟨rfl, rfl⟩
  · have hle : (2 : ℚ) ^ q ≤ 1 := zpow_le_one_of_nonpos₀ one_le_two hq
    have hlow' : n - 1 / 2 * 2 ^ q ≤ x := by
      have hhalf : (m : ℚ) - 1 / 2 ≤ x / 2 ^ q := by split at hlow <;> linarith
      rwa [le_div_iff₀ hunit, sub_mul, hvalue] at hhalf
    exact ⟨by linarith, .inl (by linarith)⟩
  · -- below a power of two the neighbours are nearer
    have hm : m = 2 ^ 52 := by
      have hdouble : m * 2 = 2 ^ 53 := by exact_mod_cast hvalue
      omega
    subst hm
    rw [if_pos ⟨rfl, by decide⟩, le_div_iff₀ hunit, sub_mul, hvalue] at hlow
    rw [zpow_one] at hlow hhigh'
    norm_num at hlow hhigh' ⊢
    exact ⟨hlow, .inr hhigh'⟩

/-- A decimal that is read as a whole number is that number or has at least its digits. -/
theorem le_digits (h : Whole n m q) (hn : 0 < n) {D : DecimalForm}
    (hD : (ReadBack.of double m q).Reads D.value) : D.value = n ∨ n ≤ D.digits := by
  obtain ⟨hlow, hhigh⟩ := h.near hn hD
  obtain ⟨digits, exponent⟩ := D
  cases exponent with
  | ofNat k =>
      have hnatural : DecimalForm.value ⟨digits, .ofNat k⟩ = (digits * 10 ^ k : ℕ) := by
        rw [DecimalForm.value, Int.ofNat_eq_natCast, zpow_natCast]
        push_cast
        rfl
      rw [hnatural] at hlow hhigh ⊢
      generalize hN : digits * 10 ^ k = N at hlow hhigh ⊢
      have hle : n ≤ N := by
        have hlt : (n : ℚ) < (N + 1 : ℕ) := by
          push_cast
          linarith
        exact Nat.le_of_lt_succ (Nat.cast_lt.mp hlt)
      rcases hhigh with hnear | ⟨rfl, hnext⟩
      · have hlt : (N : ℚ) < (n + 1 : ℕ) := by
          push_cast
          linarith
        exact .inl (congrArg _ (le_antisymm (Nat.le_of_lt_succ (Nat.cast_lt.mp hlt)) hle))
      · -- the next integer is read as the last one, but has no zero at its end
        have hnext' : N ≤ 2 ^ 53 + 1 := by exact_mod_cast hnext
        rcases Nat.eq_or_lt_of_le hle with heq | hlt
        · exact .inl (congrArg _ heq.symm)
        · cases k with
          | zero =>
              rw [pow_zero, mul_one] at hN
              exact .inr (hle.trans hN.ge)
          | succ k =>
              rw [pow_succ, ← mul_assoc] at hN
              omega
  | negSucc k =>
      have htenth : DecimalForm.value ⟨digits, .negSucc k⟩ ≤ digits / 10 := by
        have hpow : (10 : ℚ) ^ Int.negSucc k ≤ 10 ^ (-1 : ℤ) :=
          zpow_le_zpow_right₀ (by norm_num) (by omega)
        calc (digits : ℚ) * 10 ^ Int.negSucc k
            ≤ digits * 10 ^ (-1 : ℤ) := mul_le_mul_of_nonneg_left hpow (Nat.cast_nonneg _)
          _ = digits / 10 := by rw [zpow_neg_one, div_eq_mul_inv]
      have hfirst : (1 : ℚ) ≤ n := by exact_mod_cast hn
      have hle : (n : ℚ) ≤ digits := by linarith
      exact .inr (by exact_mod_cast hle)

theorem value_decimalForm (h : Whole n m q) : (decimalForm m q).value = n := by
  unfold decimalForm
  split
  · next hm =>
      rw [← h.value, hm, Nat.cast_zero, zero_mul]
      exact zero_mul _
  · next hm =>
      have hpos := Nat.pos_of_ne_zero hm
      have hn : 0 < n := Nat.pos_of_ne_zero (mt h.eq_zero_iff.mpr hm)
      have hsmall : m < 2 * 2 ^ 52 := by exact_mod_cast h.canonical.small
      have hshortest := shortest_shortest double q hpos (by omega)
      rcases h.le_digits hn hshortest.reads with heq | hle
      · exact heq
      · -- the integer has no more digits than the shortest decimal, and nothing is nearer to itself
        have hstrip : (DecimalForm.strip n 0).value = (ReadBack.of double m q).center := by
          rw [DecimalForm.strip_value, zpow_zero, mul_one, ReadBack.center_of, h.value]
        have hreads : (ReadBack.of double m q).Reads (DecimalForm.strip n 0).value := by
          rw [hstrip, ReadBack.center_of]
          exact ReadBack.reads_of double q hpos le_rfl (by linarith)
        have hlength : decimalLength (DecimalForm.strip n 0).digits ≤
            decimalLength (shortest double m q).digits := by
          refine (Nat.length_toDigits_le_iff (by decide) Nat.length_toDigits_pos).mpr ?_
          exact ((DecimalForm.strip_digits_le n 0).trans hle).trans_lt (lt_pow_decimalLength _)
        have hnear := hshortest.nearest _ hreads hlength
        rw [hstrip, sub_self, abs_zero, ReadBack.center_of, h.value] at hnear
        exact sub_eq_zero.mp (abs_nonpos_iff.mp hnear)

end Whole

end BinaryLayout

namespace NumberFormat

open BinaryLayout

/-! ## Integers by their digits -/

theorem toDigits_hundred {n : ℕ} (hn : 0 < n) :
    Nat.toDigits 10 (100 * n) = Nat.toDigits 10 n ++ ['0', '0'] := by
  rw [mul_comm]
  exact Decimal.toDigits_mul_pow hn 2

theorem toString_hundred {n : ℤ} (hn : n ≠ 0) : toString (100 * n) = toString n ++ "00" := by
  have hdigits {k : ℕ} (hk : 0 < k) :
      String.ofList (Nat.toDigits 10 (100 * k)) = String.ofList (Nat.toDigits 10 k) ++ "00" := by
    rw [toDigits_hundred hk, String.ofList_append]
  have hpos : 0 < n.natAbs := Int.natAbs_pos.mpr hn
  rcases Int.natAbs_eq n with heq | heq
  · rw [heq, show 100 * (n.natAbs : ℤ) = (100 * n.natAbs : ℕ) by push_cast; rfl]
    exact hdigits hpos
  · rw [heq, show 100 * (-(n.natAbs : ℤ)) = -((100 * n.natAbs : ℕ) : ℤ) by push_cast; ring,
      Decimal.toString_neg (by omega), Decimal.toString_neg hpos.ne', hdigits hpos,
      String.append_assoc]

theorem formatInteger_eq (f : NumberFormat) (n : ℤ) :
    f.formatInteger n = f.decorate (toString (if f = .percent then 100 * n else n)) := by
  unfold formatInteger
  by_cases hf : f = .percent
  · by_cases hn : n = 0
    · subst hn
      simp [hf]
    · rw [if_pos hf, toString_hundred hn]
      simp [hf, hn]
  · simp [hf]

/-! ## Integers as doubles -/

theorem toDouble_integer (n : ℤ) :
    (Number.integer n).toDouble = doubleNearest (decide (n < 0)) n.natAbs 1 := by
  cases n with
  | ofNat k => rfl
  | negSucc k =>
      rw [decide_eq_true (Int.negSucc_lt_zero k)]
      rfl

variable {n : ℤ} {m : ℕ} {q : ℤ}

theorem denoted_whole (h : Whole n.natAbs m q) : denoted (decide (n < 0)) m q = n := by
  rw [denoted, h.value_decimalForm]
  by_cases hn : n < 0
  · rw [decide_eq_true hn, if_pos rfl]
    rw [← Int.cast_natCast, ← Int.cast_neg, show -(n.natAbs : ℤ) = n by omega]
  · rw [decide_eq_false hn, if_neg (by decide)]
    rw [← Int.cast_natCast, show (n.natAbs : ℤ) = n by omega]

/-- A double whose decimal is an integer is formatted as this integer. -/
theorem formatDouble_integer (f : NumberFormat) {x : Float} {negative : Bool}
    (hx : doubleValue x = .finite negative m q) (h : denoted negative m q = n) :
    f.formatDouble x = f.formatInteger n := by
  rw [formatDouble, hx, format_finite, h, formatInteger_eq]
  split
  · rw [← Decimal.amount_intCast]
    push_cast
    rfl
  · rw [Decimal.amount_intCast]

theorem formatDouble_whole (f : NumberFormat) {x : Float} (h : Whole n.natAbs m q)
    (hx : doubleValue x = .finite (decide (n < 0)) m q) : f.formatDouble x = f.formatInteger n :=
  formatDouble_integer f hx (denoted_whole h)

end NumberFormat

end PagedReport
