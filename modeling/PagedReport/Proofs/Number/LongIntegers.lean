import PagedReport.Proofs.Number.Integers

/-!
# Integers beyond signed words

From `2 ^ 63` to `2 ^ 64` the doubles are 2048 apart.  So a multiple of a thousand is read as each
of them, and the shortest decimal is such a multiple too: what is printed ends with three zeros.
-/

namespace PagedReport

namespace DecimalForm

theorem positional_ofNat (digits k : ℕ) :
    (⟨digits, .ofNat k⟩ : DecimalForm).positional = toString (digits * 10 ^ k) := by
  have htext (n : ℕ) : toString n = String.ofList (Nat.toDigits 10 n) := Nat.repr_eq_ofList_toDigits
  unfold positional
  dsimp only
  rw [htext]
  rcases Nat.eq_zero_or_pos digits with rfl | hdigits
  · rw [Nat.zero_mul]
    rfl
  · rw [if_neg hdigits.ne', Decimal.toDigits_mul_pow hdigits]

/-- The next multiple of a thousand. -/
def nextThousand (v : ℕ) : DecimalForm := strip ((v + 999) / 1000) 3

theorem nextThousand_value (v : ℕ) : (nextThousand v).value = ((v + 999) / 1000 * 1000 : ℕ) := by
  rw [nextThousand, strip_value]
  push_cast
  norm_num

/-- A number with no more digits than the next multiple of a thousand is not even a hundredth. -/
theorem mul_hundred_lt {v digits : ℕ} (hdvd : 2048 ∣ v) (hlow : 2 ^ 63 ≤ v) (hhigh : v ≤ 2 ^ 64)
    (h : decimalLength digits ≤ decimalLength (nextThousand v).digits) :
    digits * 10 ^ 2 + 2048 < v := by
  have hlength := lt_pow_decimalLength digits
  rcases Nat.lt_or_ge (10 ^ 16) ((v + 999) / 1000) with hlong | hshort
  · -- beyond `10 ^ 19` the next number that 2048 divides is far enough
    have hsize : decimalLength (nextThousand v).digits ≤ 17 := decimalLength_strip_le 3 (by omega)
    have hpow := hlength.trans_le (Nat.pow_le_pow_right (by decide) (h.trans hsize))
    omega
  · have hsize : decimalLength (nextThousand v).digits ≤ 16 := decimalLength_strip_le 3 hshort
    have hpow := hlength.trans_le (Nat.pow_le_pow_right (by decide) (h.trans hsize))
    omega

end DecimalForm

namespace BinaryLayout

/-- A double between `2 ^ 63` and `2 ^ 64`, at both ends included. -/
structure Long (m : ℕ) (q : ℤ) : Prop where
  canonical : double.Canonical m q
  finite : double.word m q < double.infinity
  full : 2 ^ 52 ≤ m
  exponent : q = 11 ∨ q = 12 ∧ m = 2 ^ 52

section

variable {n : ℕ} (hlow : 2 ^ 63 ≤ n) (hhigh : n < 2 ^ 64)

include hlow hhigh

/-- The last place of a full significand is two to the eleventh. -/
theorem lastPlace_eq {y : ℚ} {e : ℤ} (hy : double.Canonical y e) (heq : (n : ℚ) = y * 2 ^ e) :
    e = 11 := by
  have hhidden : double.hidden = 2 ^ 52 := rfl
  have hleast : double.leastExponent = -1074 := by decide
  have hunit : (0 : ℚ) < 2 ^ e := zpow_pos two_pos e
  have hlow' : (2 ^ 63 : ℚ) ≤ n := by exact_mod_cast hlow
  have hhigh' : (n : ℚ) < 2 ^ 64 := by exact_mod_cast hhigh
  rw [heq] at hlow' hhigh'
  have hsmall := hy.small
  rw [hhidden] at hsmall
  have habove : (10 : ℤ) < e := by
    have hlt : (2 : ℚ) ^ (10 : ℤ) < 2 ^ e := by
      norm_num at hsmall hlow' ⊢
      nlinarith
    exact (zpow_lt_zpow_iff_right₀ one_lt_two).mp hlt
  have hfull := hy.full (by omega)
  rw [hhidden] at hfull
  have hbelow : e < 12 := by
    have hlt : (2 : ℚ) ^ e < 2 ^ (12 : ℤ) := by
      norm_num at hfull hhigh' ⊢
      nlinarith
    exact (zpow_lt_zpow_iff_right₀ one_lt_two).mp hlt
  omega

/-- An integer is rounded to a double in this range. -/
theorem exists_long : ∃ m q, Long m q ∧ double.nearest n 1 = double.word m q := by
  have hhidden : double.hidden = 2 ^ 52 := rfl
  have hleast : double.leastExponent = -1074 := by decide
  have hinfinity : double.infinity = 2047 * 2 ^ 52 := rfl
  obtain ⟨e, y, r, heq, hy, hround, hnearest⟩ :=
    exists_nearest double (by omega : 0 < n) Nat.one_pos
  rw [Nat.cast_one, div_one] at heq
  obtain rfl : e = 11 := lastPlace_eq hlow hhigh hy heq
  rcases Nat.lt_or_eq_of_le (hy.le_two_hidden hround) with hlt | rfl
  · have hcanonical := hy.of_rounds hround hlt
    have hr : 2 ^ 52 ≤ r := by
      have hr := hcanonical.full (by omega)
      rw [hhidden] at hr
      exact_mod_cast hr
    have hfinite : double.word r 11 < double.infinity := by
      rw [word, hleast, hhidden, hinfinity]
      rw [hhidden] at hlt
      omega
    exact ⟨r, 11, ⟨hcanonical, hfinite, hr, .inl rfl⟩, by rw [hnearest, min_eq_left hfinite.le]⟩
  · have hcanonical : double.Canonical (2 ^ 52 : ℕ) 12 := by
      refine ⟨by positivity, ?_, by omega, fun _ ↦ ?_⟩
      · rw [hhidden]
        norm_num
      · rw [hhidden]
    have hfinite : double.word (2 ^ 52) 12 < double.infinity := by decide
    refine ⟨2 ^ 52, 12, ⟨hcanonical, hfinite, le_rfl, .inr ⟨rfl, rfl⟩⟩, ?_⟩
    rw [hnearest, word_next hy.least]
    exact min_eq_left hfinite.le

end

namespace Long

variable {m : ℕ} {q : ℤ} (h : Long m q)

include h

theorem pos : 0 < m := Nat.lt_of_lt_of_le (by decide) h.full

theorem exists_value : ∃ v : ℕ, (m : ℚ) * 2 ^ q = v ∧ 2048 ∣ v ∧ 2 ^ 63 ≤ v ∧ v ≤ 2 ^ 64 := by
  have hfull := h.full
  have hsmall : m < 2 * 2 ^ 52 := by exact_mod_cast h.canonical.small
  rcases h.exponent with rfl | ⟨rfl, rfl⟩
  · exact ⟨m * 2048, by norm_num, Nat.dvd_mul_left .., by omega, by omega⟩
  · exact ⟨2 ^ 64, by norm_num, by decide, by decide, le_rfl⟩

/-- What is read as the double is not much less than it. -/
theorem sub_le {x : ℚ} (hx : (ReadBack.of double m q).Reads x) : m * 2 ^ q - 2048 ≤ x := by
  have hunit : (0 : ℚ) < 2 ^ q := zpow_pos two_pos q
  have hhalf : 1 / 2 * 2 ^ q ≤ (2048 : ℚ) := by
    rcases h.exponent with rfl | ⟨rfl, -⟩ <;> norm_num
  rw [← div_mul_cancel₀ x hunit.ne', ReadBack.reads_of_iff double q h.pos] at hx
  have hlow : (m : ℚ) - 1 / 2 ≤ x / 2 ^ q := by
    have hlow := hx.bounds.1
    split at hlow <;> linarith
  rw [le_div_iff₀ hunit, sub_mul] at hlow
  linarith

/-- All that is above the double by less than 1024 is read as it. -/
theorem reads {x : ℚ} (hle : m * 2 ^ q ≤ x) (hlt : x < m * 2 ^ q + 1024) :
    (ReadBack.of double m q).Reads x := by
  have hunit : (0 : ℚ) < 2 ^ q := zpow_pos two_pos q
  have hhalf : (1024 : ℚ) ≤ 1 / 2 * 2 ^ q := by
    rcases h.exponent with rfl | ⟨rfl, -⟩ <;> norm_num
  rw [← div_mul_cancel₀ x hunit.ne']
  refine ReadBack.reads_of double q h.pos ((le_div_iff₀ hunit).mpr hle) ?_
  rw [div_lt_iff₀ hunit, add_mul]
  linarith

theorem reads_nextThousand {v : ℕ} (hv : (m : ℚ) * 2 ^ q = v) :
    (ReadBack.of double m q).Reads (DecimalForm.nextThousand v).value := by
  have hle : v ≤ (v + 999) / 1000 * 1000 := by omega
  have hlt : (v + 999) / 1000 * 1000 < v + 1024 := by omega
  rw [DecimalForm.nextThousand_value]
  apply h.reads
  · rw [hv]
    exact_mod_cast hle
  · rw [hv]
    exact_mod_cast hlt

/-- The shortest decimal ends with three zeros: a decimal of so few digits has this size only with
them behind it. -/
theorem exists_decimalForm : ∃ digits k : ℕ, decimalForm m q = ⟨digits, .ofNat (k + 3)⟩ := by
  obtain ⟨v, hv, hdvd, hlow, hhigh⟩ := h.exists_value
  have hsmall : m < 2 * 2 ^ 52 := by exact_mod_cast h.canonical.small
  have hshortest := shortest_shortest double q h.pos (by omega)
  rw [decimalForm, if_neg h.pos.ne']
  generalize shortest double m q = D at hshortest ⊢
  have hdigits : (D.digits : ℚ) * 10 ^ (2 : ℤ) < D.value := by
    have hnear := h.sub_le hshortest.reads
    rw [hv] at hnear
    have hleast := hshortest.least _ (h.reads_nextThousand hv)
    have hlt : (D.digits : ℚ) * 10 ^ 2 + 2048 < v := by
      exact_mod_cast DecimalForm.mul_hundred_lt hdvd hlow hhigh hleast
    rw [zpow_ofNat]
    linarith
  have hexponent : (2 : ℤ) < D.exponent :=
    (zpow_lt_zpow_iff_right₀ (by norm_num)).mp
      (lt_of_mul_lt_mul_left hdigits (Nat.cast_nonneg _))
  obtain ⟨k, hk⟩ := Int.eq_ofNat_of_zero_le (by omega : 0 ≤ D.exponent - 3)
  have hthree : D.exponent = .ofNat (k + 3) := by
    rw [Int.ofNat_eq_natCast]
    omega
  exact ⟨D.digits, k, by rw [← hthree]⟩

end Long

end BinaryLayout

open BinaryLayout in
/-- As a double, an integer in this range is printed and formatted as a multiple of a thousand which
is the same double. -/
theorem exists_thousands {n : ℕ} (hlow : 2 ^ 63 ≤ n) (hhigh : n < 2 ^ 64) :
    ∃ N : ℕ, 1000 ∣ N ∧ (Number.integer N).toDouble = (Number.integer n).toDouble ∧
      (Number.integer n).toDouble.isFinite = true ∧
      doubleText (Number.integer n).toDouble = toString N ∧
      ∀ f : NumberFormat, f.formatDouble (Number.integer n).toDouble = f.formatInteger N := by
  obtain ⟨m, q, h, hnearest⟩ := exists_long hlow hhigh
  obtain ⟨hvalue, hfinite⟩ :=
    doubleValue_doubleNearest false h.canonical h.finite hnearest
  have hdouble (n : ℕ) : (Number.integer n).toDouble = doubleNearest false n 1 := rfl
  rw [hdouble]
  obtain ⟨digits, k, hform⟩ := h.exists_decimalForm
  refine ⟨digits * 10 ^ (k + 3), ?_, ?_, hfinite, ?_, fun f ↦ ?_⟩
  · rw [pow_add]
    exact Dvd.dvd.mul_left (Dvd.intro_left _ rfl) _
  · have hreads := (DecimalForm.represents hvalue).reads
    obtain ⟨-, -, hword⟩ := decode_word hvalue
    rw [hform, DecimalForm.ReadsAs] at hreads
    have hsame : double.nearest (digits * 10 ^ (k + 3)) 1 = double.nearest n 1 :=
      hreads.trans (hword.symm.trans hnearest.symm)
    rw [hdouble, doubleNearest, doubleNearest, hsame]
  · rw [doubleText, hvalue, NumberFormat.text_decimalForm, hform, DecimalForm.positional_ofNat]
  · refine NumberFormat.formatDouble_integer f hvalue ?_
    rw [NumberFormat.denoted, hform, if_neg (by decide), DecimalForm.value, Int.ofNat_eq_natCast,
      zpow_natCast]
    push_cast
    rfl

end PagedReport
