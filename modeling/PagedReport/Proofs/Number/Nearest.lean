import PagedReport.Number.Text
import PagedReport.Proofs.Number.ReadingBack

/-!
# The nearest binary number

`nearest` reads a ratio as the word whose number has the ratio between the midpoints to its
neighbours.  So the decimal that a double is printed as is read as that double, and no decimal with
fewer digits is.
-/

namespace PagedReport

namespace BinaryLayout

/-! ## Rounding to a natural -/

/-- A rational is nearest to a natural, or halfway from an even one. -/
def Rounds (y : ℚ) (k : ℕ) : Prop := Within (k % 2 == 0) (k - 1 / 2) (k + 1 / 2) y

theorem Rounds.near {y : ℚ} {k : ℕ} (h : Rounds y k) : (k : ℚ) - 1 / 2 ≤ y ∧ y ≤ k + 1 / 2 :=
  Within.bounds h

theorem Rounds.le {y : ℚ} {j k : ℕ} (hj : Rounds y j) (hk : Rounds y k) : k ≤ j := by
  by_contra hlt
  have hnext : (j : ℚ) + 1 ≤ k := by exact_mod_cast not_le.mp hlt
  obtain ⟨-, hy⟩ := hj.near
  obtain ⟨hy', -⟩ := hk.near
  have hk' : k = j + 1 := by
    have : (k : ℚ) = (j + 1 : ℕ) := by
      push_cast
      linarith
    exact_mod_cast this
  subst hk'
  -- halfway, and only one of two neighbours is even
  unfold Rounds Within at hj hk
  split at hj
  · next heven =>
      rw [if_neg (by grind)] at hk
      linarith [hk.1]
  · linarith [hj.2]

theorem rounds_roundEven (n : ℕ) {d : ℕ} (hd : 0 < d) : Rounds (n / d) (roundEven n d) := by
  obtain ⟨t, hsum, hnonneg, hless, hlt, hgt⟩ := exists_part n hd
  unfold roundEven Rounds
  dsimp only
  rw [hsum]
  split
  · next h => exact .of_open (by linarith) (by linarith [hlt.mp h])
  · next h =>
      split
      · next h' =>
          have habove := hgt.mp h'
          rw [Nat.cast_add_one]
          exact .of_open (by linarith) (by linarith)
      · next h' =>
          have hhalf : t = 1 / 2 :=
            le_antisymm (not_lt.mp (mt hgt.mpr h')) (not_lt.mp (mt hlt.mpr h))
          have heven : ((n / d + n / d % 2) % 2 == 0) = true := by
            rw [beq_iff_eq]
            omega
          unfold Within
          rw [if_pos heven, hhalf]
          rcases Nat.mod_two_eq_zero_or_one (n / d) with hmod | hmod
          · rw [hmod]
            push_cast
            constructor <;> linarith
          · rw [hmod]
            push_cast
            constructor <;> linarith

variable (l : BinaryLayout)

/-! ## Words -/

/-- A rational in units of the last place of a significand that is full, unless the exponent is the
least. -/
structure Canonical (y : ℚ) (e : ℤ) : Prop where
  nonneg : 0 ≤ y
  small : y < 2 * l.hidden
  least : l.leastExponent ≤ e
  full : l.leastExponent < e → l.hidden ≤ y

/-- The word of a positive number. -/
def word (m : ℕ) (q : ℤ) : ℕ := (q - l.leastExponent).toNat * l.hidden + m

variable {l}

/-- Twice the hidden bit is the hidden bit of the next exponent. -/
theorem word_next {q : ℤ} (hq : l.leastExponent ≤ q) :
    l.word (2 * l.hidden) q = l.word l.hidden (q + 1) := by
  have hstep : (q + 1 - l.leastExponent).toNat = (q - l.leastExponent).toNat + 1 := by omega
  unfold word
  rw [hstep]
  ring

theorem pow_mul_le {y z : ℚ} {e q : ℤ} (h : y * 2 ^ e = z * 2 ^ q) (hz : 0 ≤ z) (hlt : e < q) :
    2 * z ≤ y := by
  have hunit : (0 : ℚ) < 2 ^ e := zpow_pos two_pos e
  refine le_of_mul_le_mul_right ?_ hunit
  calc 2 * z * 2 ^ e = z * 2 ^ (e + 1) := by
        rw [zpow_add_one₀ two_ne_zero]
        ring
    _ ≤ z * 2 ^ q := mul_le_mul_of_nonneg_left (zpow_le_zpow_right₀ one_le_two hlt) hz
    _ = y * 2 ^ e := h.symm

namespace Canonical

variable {m m' : ℕ} {y z : ℚ} {e q : ℤ}

theorem unique (hy : l.Canonical y e) (hz : l.Canonical z q) (h : y * 2 ^ e = z * 2 ^ q) :
    y = z ∧ e = q := by
  rcases lt_trichotomy e q with hlt | rfl | hlt
  · have hle := pow_mul_le h hz.nonneg hlt
    linarith [hy.small, hz.full (hy.least.trans_lt hlt)]
  · exact ⟨mul_right_cancel₀ (zpow_pos two_pos e).ne' h, rfl⟩
  · have hle := pow_mul_le h.symm hy.nonneg hlt
    linarith [hz.small, hy.full (hz.least.trans_lt hlt)]

theorem word_lt (h : l.Canonical m q) (h' : l.Canonical m' e) (hlt : q < e) :
    l.word m q < l.word m' e := by
  have hsmall : m < 2 * l.hidden := by exact_mod_cast h.small
  have hfull : l.hidden ≤ m' := by exact_mod_cast h'.full (h.least.trans_lt hlt)
  have hleast := h.least
  have hstep : ((q - l.leastExponent).toNat + 1) * l.hidden ≤
      (e - l.leastExponent).toNat * l.hidden := Nat.mul_le_mul_right _ (by omega)
  unfold word
  rw [Nat.succ_mul] at hstep
  omega

theorem word_inj (h : l.Canonical m q) (h' : l.Canonical m' e) (heq : l.word m q = l.word m' e) :
    m = m' ∧ q = e := by
  rcases lt_trichotomy q e with hlt | rfl | hlt
  · exact absurd heq (h.word_lt h' hlt).ne
  · exact ⟨Nat.add_left_cancel heq, rfl⟩
  · exact absurd heq (h'.word_lt h hlt).ne'

/-- Zero has the least exponent. -/
theorem word_zero (h : l.Canonical (0 : ℕ) q) : l.word 0 q = 0 := by
  have hq : q ≤ l.leastExponent := by
    refine not_lt.mp fun hlt ↦ ?_
    have hhidden : 0 < l.hidden := Nat.pow_pos (by decide)
    exact absurd (Nat.cast_le.mp (h.full hlt)) (Nat.not_le.mpr hhidden)
  rw [word, Int.toNat_of_nonpos (Int.sub_nonpos_of_le hq), Nat.zero_mul]

end Canonical

/-! ## Exponents -/

theorem log2_bounds {num den : ℕ} (hnum : 0 < num) (hden : 0 < den) :
    (2 : ℚ) ^ ((num.log2 : ℤ) - den.log2 - 1) < num / den ∧
      (num : ℚ) / den < 2 ^ ((num.log2 : ℤ) - den.log2 + 1) := by
  have hden' : (0 : ℚ) < den := by exact_mod_cast hden
  have hunit (e : ℤ) : (0 : ℚ) < 2 ^ e := zpow_pos (by norm_num) e
  have hpow (e : ℤ) (k : ℕ) : (2 : ℚ) ^ e * (2 ^ k : ℕ) = 2 ^ (e + k) := by
    rw [zpow_add₀ (by norm_num), zpow_natCast, Nat.cast_pow, Nat.cast_ofNat]
  constructor
  · rw [lt_div_iff₀ hden']
    calc (2 : ℚ) ^ ((num.log2 : ℤ) - den.log2 - 1) * den
        < 2 ^ ((num.log2 : ℤ) - den.log2 - 1) * (2 ^ (den.log2 + 1) : ℕ) :=
          mul_lt_mul_of_pos_left (by exact_mod_cast Nat.lt_log2_self) (hunit _)
      _ = (2 ^ num.log2 : ℕ) := by
          rw [hpow, Nat.cast_pow, Nat.cast_ofNat, ← zpow_natCast]
          congr 1
          omega
      _ ≤ num := by exact_mod_cast Nat.log2_self_le hnum.ne'
  · rw [div_lt_iff₀ hden']
    calc (num : ℚ)
        < (2 ^ (num.log2 + 1) : ℕ) := by exact_mod_cast Nat.lt_log2_self
      _ = 2 ^ ((num.log2 : ℤ) - den.log2 + 1) * (2 ^ den.log2 : ℕ) := by
          rw [hpow, Nat.cast_pow, Nat.cast_ofNat, ← zpow_natCast]
          congr 1
          omega
      _ ≤ 2 ^ ((num.log2 : ℤ) - den.log2 + 1) * den :=
          mul_le_mul_of_nonneg_left (by exact_mod_cast Nat.log2_self_le hden.ne') (hunit _).le

/-- The exponent of the leading bit. -/
theorem exists_magnitude {num den : ℕ} (hnum : 0 < num) (hden : 0 < den) :
    let guess : ℤ := num.log2 - den.log2
    let scaled := scaleByPow2 num den (-guess)
    ∃ g : ℤ, (if scaled.2 ≤ scaled.1 then guess else guess - 1) = g ∧
      (2 : ℚ) ^ g ≤ num / den ∧ (num : ℚ) / den < 2 ^ (g + 1) := by
  intro guess scaled
  obtain ⟨hlow, hhigh⟩ := log2_bounds hnum hden
  have hpos : (0 : ℚ) < scaled.2 := by exact_mod_cast scaleByPow2_pos num hden (-guess)
  have hle : scaled.2 ≤ scaled.1 ↔ (2 : ℚ) ^ guess ≤ num / den := by
    have hscaled : (scaled.1 : ℚ) / scaled.2 = num / den / 2 ^ guess := by
      rw [div_eq_mul_inv _ ((2 : ℚ) ^ guess), ← zpow_neg]
      exact scaleByPow2_div num den (-guess)
    have hunit : (0 : ℚ) < 2 ^ guess := zpow_pos two_pos guess
    rw [← one_le_div hunit, ← hscaled, one_le_div hpos]
    exact Nat.cast_le.symm
  refine ⟨_, rfl, ?_, ?_⟩
  · split
    · next h => exact hle.mp h
    · exact hlow.le
  · split
    · exact hhigh
    · next h =>
        rw [sub_add_cancel]
        exact not_le.mp (mt hle.mpr h)

/-- A ratio is rounded at the last place of an exponent that leaves it a full significand, or at the
least exponent. -/
theorem exists_nearest (l : BinaryLayout) {num den : ℕ} (hnum : 0 < num) (hden : 0 < den) :
    ∃ (e : ℤ) (y : ℚ) (r : ℕ), (num : ℚ) / den = y * 2 ^ e ∧ l.Canonical y e ∧ Rounds y r ∧
      l.nearest num den = min (l.word r e) l.infinity := by
  have hhidden : (l.hidden : ℚ) = 2 ^ (l.fractionBits : ℤ) := by
    rw [zpow_natCast]
    exact Nat.cast_pow ..
  obtain ⟨g, hg, hlow, hhigh⟩ := exists_magnitude hnum hden
  unfold nearest
  rw [if_neg hnum.ne']
  dsimp only at hg ⊢
  rw [hg]
  generalize he : max l.leastExponent (g - l.fractionBits) = e
  have hunit : (0 : ℚ) < 2 ^ e := zpow_pos two_pos e
  have hround := rounds_roundEven (scaleByPow2 num den (-e)).1 (scaleByPow2_pos num hden (-e))
  rw [scaleByPow2_div, zpow_neg, ← div_eq_mul_inv] at hround
  refine ⟨e, num / den / 2 ^ e, _, (div_mul_cancel₀ _ hunit.ne').symm,
    ⟨by positivity, ?_, by omega, ?_⟩, hround, rfl⟩
  · rw [div_lt_iff₀ hunit, hhidden, ← zpow_one_add₀ two_ne_zero, ← zpow_add₀ two_ne_zero]
    exact hhigh.trans_le (zpow_le_zpow_right₀ one_le_two (by omega))
  · intro hleast
    rw [le_div_iff₀ hunit, hhidden, ← zpow_add₀ two_ne_zero]
    exact (zpow_le_zpow_right₀ one_le_two (by omega)).trans hlow

/-! ## Between the midpoints -/

variable {m r : ℕ} {q e : ℤ} {y : ℚ} (heven : l.hidden % 2 = 0) (hm : 0 < m)
  (hcanonical : l.Canonical m q)

theorem Canonical.le_two_hidden (hy : l.Canonical y e) (hround : Rounds y r) :
    r ≤ 2 * l.hidden := by
  have hlt : (r : ℚ) < (2 * l.hidden + 1 : ℕ) := by
    push_cast
    linarith [hy.small, hround.near.1]
  exact Nat.le_of_lt_succ (Nat.cast_lt.mp hlt)

theorem Canonical.of_rounds (hy : l.Canonical y e) (hround : Rounds y r) (hr : r < 2 * l.hidden) :
    l.Canonical r e := by
  refine ⟨Nat.cast_nonneg r, by exact_mod_cast hr, hy.least, fun hlt ↦ ?_⟩
  have hlt' : (l.hidden : ℚ) < (r + 1 : ℕ) := by
    push_cast
    linarith [hy.full hlt, hround.near.2]
  exact_mod_cast Nat.le_of_lt_succ (Nat.cast_lt.mp hlt')

section

include heven hm hcanonical

theorem reads_of_word_eq (hy : l.Canonical y e) (hround : Rounds y r)
    (h : l.word r e = l.word m q) : (ReadBack.of l m q).Reads (y * 2 ^ e) := by
  rcases Nat.lt_or_eq_of_le (hy.le_two_hidden hround) with hlt | rfl
  · obtain ⟨rfl, rfl⟩ := (hy.of_rounds hround hlt).word_inj hcanonical h
    refine (ReadBack.reads_of_iff l e hm).mpr ?_
    split
    · next hbelow =>
        have hge := hy.full hbelow.2
        rw [← hbelow.1] at hge
        exact Within.of_lt hround (by linarith)
    · exact hround
  · -- rounded up to the next power of two
    have hnext : l.Canonical l.hidden (e + 1) := by
      have hpos : (0 : ℚ) < l.hidden := by exact_mod_cast Nat.pow_pos (by decide : 0 < 2)
      exact ⟨hpos.le, by linarith, Int.le_add_one hy.least, fun _ ↦ le_rfl⟩
    obtain ⟨rfl, rfl⟩ := hnext.word_inj hcanonical ((word_next hy.least).symm.trans h)
    have hhalf : y * 2 ^ e = y / 2 * 2 ^ (e + 1) := by
      rw [zpow_add_one₀ two_ne_zero]
      ring
    rw [hhalf]
    refine (ReadBack.reads_of_iff l (e + 1) hm).mpr ?_
    have hnear := hround.near.1
    rw [if_pos ⟨rfl, Int.lt_add_one_of_le hy.least⟩]
    push_cast at hnear
    unfold Within
    rw [if_pos (beq_iff_eq.mpr heven)]
    constructor <;> linarith [hy.small]

omit heven in
theorem word_eq_of_reads (hy : l.Canonical y e) (hround : Rounds y r)
    (h : (ReadBack.of l m q).Reads (y * 2 ^ e)) : l.word r e = l.word m q := by
  have hunit : (0 : ℚ) < 2 ^ q := zpow_pos two_pos q
  obtain ⟨z, hz⟩ : ∃ z, y * 2 ^ e = z * 2 ^ q := ⟨_, (div_mul_cancel₀ _ hunit.ne').symm⟩
  rw [hz, ReadBack.reads_of_iff l q hm] at h
  obtain ⟨hlow, hhigh⟩ := h.bounds
  have hfirst : (1 : ℚ) ≤ m := by exact_mod_cast hm
  by_cases hbelow : (m = l.hidden ∧ l.leastExponent < q) ∧ z < m
  · -- the ratio has a bit less than the number
    obtain ⟨⟨rfl, hq⟩, hzm⟩ := hbelow
    rw [if_pos ⟨rfl, hq⟩] at hlow
    have hprevious : l.Canonical (2 * z) (q - 1) :=
      ⟨by linarith, by linarith, Int.le_sub_one_of_lt hq, fun _ ↦ by linarith⟩
    have hdouble : y * 2 ^ e = 2 * z * 2 ^ (q - 1) := by
      rw [hz, zpow_sub_one₀ two_ne_zero]
      ring
    obtain ⟨rfl, rfl⟩ := hy.unique hprevious hdouble
    have hup : Rounds (2 * z) (2 * l.hidden) := by
      unfold Rounds Within
      rw [if_pos (by simp)]
      push_cast
      constructor <;> linarith
    rw [le_antisymm (hup.le hround) (hround.le hup), word_next hy.least, sub_add_cancel]
  · have hfull (hq : l.leastExponent < q) : (l.hidden : ℚ) ≤ z := by
      rcases eq_or_lt_of_le (hcanonical.full hq) with heq | hlt
      · rw [heq]
        exact not_lt.mp fun hzm ↦ hbelow ⟨⟨(Nat.cast_injective heq).symm, hq⟩, hzm⟩
      · have hnext : (l.hidden + 1 : ℚ) ≤ m := by exact_mod_cast Nat.cast_lt.mp hlt
        split at hlow <;> linarith
    have hlast : (m + 1 : ℚ) ≤ 2 * l.hidden := by exact_mod_cast hcanonical.small
    have hsame : l.Canonical z q :=
      ⟨by split at hlow <;> linarith, by linarith, hcanonical.least, hfull⟩
    obtain ⟨rfl, rfl⟩ := hy.unique hsame hz
    have hnearest : Rounds y m := by
      split at h
      · next hcase =>
          have hmy : (m : ℚ) ≤ y := not_lt.mp fun hlt ↦ hbelow ⟨hcase, hlt⟩
          exact Within.of_lt h (by linarith)
      · exact h
    rw [le_antisymm (hnearest.le hround) (hround.le hnearest)]

/-- A ratio is read as a number if it lies between the midpoints to its neighbours. -/
theorem nearest_eq_iff (hfinite : l.word m q < l.infinity) {num den : ℕ} (hnum : 0 < num)
    (hden : 0 < den) :
    l.nearest num den = l.word m q ↔ (ReadBack.of l m q).Reads (num / den) := by
  obtain ⟨e, y, r, heq, hy, hround, hnearest⟩ := exists_nearest l hnum hden
  rw [hnearest, heq]
  constructor
  · intro h
    exact reads_of_word_eq heven hm hcanonical hy hround (by omega)
  · intro h
    have hword := word_eq_of_reads hm hcanonical hy hround h
    omega

end

/-! ## Words taken apart -/

theorem decode_word {bits : ℕ} {negative : Bool} (h : l.decode bits = .finite negative m q) :
    l.Canonical m q ∧ l.word m q < l.infinity ∧
      l.word m q = bits % (l.hidden * 2 ^ l.exponentBits) := by
  have hhidden : 0 < l.hidden := Nat.pow_pos (by decide)
  have hfraction : bits % l.hidden < l.hidden := Nat.mod_lt _ hhidden
  have hfield : bits / l.hidden % 2 ^ l.exponentBits < 2 ^ l.exponentBits :=
    Nat.mod_lt _ (Nat.pow_pos (by decide))
  rw [Nat.mod_mul]
  unfold decode at h
  dsimp only [Nat.pow_eq] at h
  generalize bits / l.hidden % 2 ^ l.exponentBits = field at *
  split at h
  · split at h <;> cases h
  · next hlast =>
      have hless : (field + 1) * l.hidden ≤ l.infinity :=
        Nat.mul_le_mul_right _ (by rw [Nat.pow_eq]; omega)
      split at h
      · next hzero =>
          obtain ⟨-, rfl, rfl⟩ := BinaryValue.finite.inj h
          have hword : l.word (bits % l.hidden) l.leastExponent = bits % l.hidden := by
            rw [word, sub_self, Int.toNat_zero, Nat.zero_mul, Nat.zero_add]
          have hsmall : bits % l.hidden < 2 * l.hidden := by omega
          rw [hword, hzero]
          rw [hzero] at hless
          refine ⟨⟨Nat.cast_nonneg _, by exact_mod_cast hsmall, le_rfl, ?_⟩, by omega, by omega⟩
          exact fun hlt ↦ absurd hlt (lt_irrefl _)
      · next hpos =>
          obtain ⟨-, rfl, rfl⟩ := BinaryValue.finite.inj h
          have hword : l.word (l.hidden + bits % l.hidden) (l.leastExponent + (field - 1 : ℕ)) =
              bits % l.hidden + l.hidden * field := by
            have hexponent : (l.leastExponent + (field - 1 : ℕ) - l.leastExponent).toNat =
                field - 1 := by omega
            obtain ⟨k, rfl⟩ := Nat.exists_eq_add_one_of_ne_zero hpos
            rw [word, hexponent, Nat.add_sub_cancel]
            ring
          have hsmall : l.hidden + bits % l.hidden < 2 * l.hidden := by omega
          rw [hword]
          rw [Nat.succ_mul, Nat.mul_comm] at hless
          have hfull : l.hidden ≤ l.hidden + bits % l.hidden := Nat.le_add_right ..
          exact ⟨⟨Nat.cast_nonneg _, by exact_mod_cast hsmall, by omega,
            fun _ ↦ by exact_mod_cast hfull⟩, by omega, rfl⟩

end BinaryLayout

/-! ## Decimals of doubles -/

/-- The decimal that a double is printed as, without its sign. -/
def decimalForm (m : ℕ) (q : ℤ) : DecimalForm := if m = 0 then ⟨0, 0⟩ else shortest .double m q

namespace DecimalForm

/-- Whether a decimal is read as a double, but for the sign. -/
def ReadsAs (D : DecimalForm) (x : Float) : Prop :=
  BinaryLayout.double.nearest (scaleByPow10 D.digits 1 D.exponent).1
    (scaleByPow10 D.digits 1 D.exponent).2 = x.toBits.toNat % 2 ^ 63

/-- A decimal is read as a double of this magnitude, no decimal with fewer digits is, and none with
as many is nearer. -/
structure Represents (D : DecimalForm) (x : Float) (magnitude : ℚ) : Prop where
  reads : D.ReadsAs x
  least : ∀ D' : DecimalForm, D'.ReadsAs x → decimalLength D.digits ≤ decimalLength D'.digits
  nearest : ∀ D' : DecimalForm, D'.ReadsAs x → decimalLength D'.digits ≤ decimalLength D.digits →
    |D.value - magnitude| ≤ |D'.value - magnitude|

variable {x : Float} {negative : Bool} {m : ℕ} {q : ℤ}

theorem readsAs_iff (h : doubleValue x = .finite negative m q) (hm : 0 < m) (D : DecimalForm) :
    D.ReadsAs x ↔ (ReadBack.of .double m q).Reads D.value := by
  obtain ⟨hcanonical, hfinite, hword⟩ := BinaryLayout.decode_word h
  have hword' : x.toBits.toNat % 2 ^ 63 = BinaryLayout.double.word m q := hword.symm
  have hratio : D.value =
      (scaleByPow10 D.digits 1 D.exponent).1 / (scaleByPow10 D.digits 1 D.exponent).2 := by
    rw [scaleByPow10_div, Nat.cast_one, div_one, value]
  have hden : 0 < (scaleByPow10 D.digits 1 D.exponent).2 := scaleByPow10_pos _ Nat.one_pos _
  rw [ReadsAs, hword', hratio]
  rcases Nat.eq_zero_or_pos (scaleByPow10 D.digits 1 D.exponent).1 with hzero | hnum
  · -- nothing but zero is read as zero
    rw [hzero, Nat.cast_zero, zero_div]
    constructor
    · intro hnearest
      have hpos : 0 < BinaryLayout.double.word m q := Nat.add_pos_right _ hm
      exact absurd hnearest hpos.ne
    · intro hreads
      exact absurd (ReadBack.Reads.pos hm hreads) (lt_irrefl 0)
  · exact BinaryLayout.nearest_eq_iff rfl hm hcanonical hfinite hnum hden

theorem represents (h : doubleValue x = .finite negative m q) :
    (decimalForm m q).Represents x (m * 2 ^ q) := by
  obtain ⟨hcanonical, -, hword⟩ := BinaryLayout.decode_word h
  unfold decimalForm
  split
  · next hm =>
      subst hm
      refine ⟨hcanonical.word_zero.symm.trans hword, fun D' _ ↦ Nat.length_toDigits_pos,
        fun D' _ _ ↦ ?_⟩
      rw [value, Nat.cast_zero, zero_mul, zero_mul, sub_zero, abs_zero]
      exact abs_nonneg _
  · next hm =>
      have hpos := Nat.pos_of_ne_zero hm
      have hsmall : m < 2 * 2 ^ 52 := by exact_mod_cast hcanonical.small
      have hshortest := shortest_shortest .double q hpos (by omega)
      rw [← ReadBack.center_of .double m q]
      exact ⟨(readsAs_iff h hpos _).mpr hshortest.reads,
        fun D' hD' ↦ hshortest.least D' ((readsAs_iff h hpos D').mp hD'),
        fun D' hD' ↦ hshortest.nearest D' ((readsAs_iff h hpos D').mp hD')⟩

end DecimalForm

end PagedReport
