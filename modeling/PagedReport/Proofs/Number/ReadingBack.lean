import PagedReport.Proofs.Number.ShortestDigits

/-!
# Shortest decimals read back

A decimal reads back as a binary number if it lies between the midpoints to the neighbours of that
number; a midpoint goes to the even one.  What `shortest` finds reads back, no decimal with fewer
digits does, and of those with as many it is the nearest.
-/

namespace PagedReport

/-- Lies between two ends, which are points of a closed interval only. -/
def Within (closed : Bool) (low high x : ℚ) : Prop :=
  if closed then low ≤ x ∧ x ≤ high else low < x ∧ x < high

namespace Within

variable {closed : Bool} {low high x y z : ℚ}

theorem of_between (hx : Within closed low high x) (hz : Within closed low high z) (hxy : x ≤ y)
    (hyz : y ≤ z) : Within closed low high y := by
  cases closed with
  | true => exact ⟨hx.1.trans hxy, hyz.trans hz.2⟩
  | false => exact ⟨hx.1.trans_le hxy, hyz.trans_lt hz.2⟩

theorem of_open (hlow : low < x) (hhigh : x < high) : Within closed low high x := by
  cases closed with
  | true => exact ⟨hlow.le, hhigh.le⟩
  | false => exact ⟨hlow, hhigh⟩

theorem bounds (h : Within closed low high x) : low ≤ x ∧ x ≤ high := by
  cases closed with
  | true => exact h
  | false => exact ⟨h.1.le, h.2.le⟩

theorem of_lt {low' : ℚ} (h : Within closed low high x) (hlow : low' < x) :
    Within closed low' high x := by
  cases closed with
  | true => exact ⟨hlow.le, h.2⟩
  | false => exact ⟨hlow, h.2⟩

theorem mul_iff {s : ℚ} (hs : 0 < s) :
    Within closed (low * s) (high * s) (x * s) ↔ Within closed low high x := by
  unfold Within
  rw [mul_le_mul_iff_left₀ hs, mul_le_mul_iff_left₀ hs, mul_lt_mul_iff_left₀ hs,
    mul_lt_mul_iff_left₀ hs]

end Within

namespace ReadBack

/-- The number itself. -/
def center (r : ReadBack) : ℚ := r.value / r.denominator

/-- Whether a rational lies in the interval. -/
def Reads (r : ReadBack) (x : ℚ) : Prop :=
  Within r.closed (r.low / r.denominator) (r.high / r.denominator) x

variable {r : ReadBack}

/-! ## Midpoints -/

section

variable (l : BinaryLayout) (m : ℕ) (q : ℤ)

theorem center_of : (of l m q).center = m * 2 ^ q := by
  have hscaled := BinaryLayout.scaleByPow2_common (4 * m) (q - 2)
  rw [center]
  refine hscaled.trans ?_
  rw [zpow_sub₀ (by norm_num)]
  push_cast
  ring

theorem high_of : ((of l m q).high : ℚ) / (of l m q).denominator = (m + 1 / 2) * 2 ^ q := by
  have hscaled := BinaryLayout.scaleByPow2_common (4 * m + 2) (q - 2)
  refine hscaled.trans ?_
  rw [zpow_sub₀ (by norm_num)]
  push_cast
  ring

variable {m} in
theorem low_of (hm : 0 < m) : ((of l m q).low : ℚ) / (of l m q).denominator =
    (m - if m = l.hidden ∧ l.leastExponent < q then 1 / 4 else 1 / 2) * 2 ^ q := by
  have hscaled := BinaryLayout.scaleByPow2_common
    (if m = l.hidden ∧ l.leastExponent < q then 4 * m - 1 else 4 * m - 2) (q - 2)
  refine hscaled.trans ?_
  rw [zpow_sub₀ (by norm_num)]
  split
  · rw [Nat.cast_sub (by omega)]
    push_cast
    ring
  · rw [Nat.cast_sub (by omega)]
    push_cast
    ring

variable {m} in
/-- In units of the last place. -/
theorem reads_of_iff (hm : 0 < m) {y : ℚ} : (of l m q).Reads (y * 2 ^ q) ↔
    Within (m % 2 == 0) (m - if m = l.hidden ∧ l.leastExponent < q then 1 / 4 else 1 / 2)
      (m + 1 / 2) y := by
  have hunit : (0 : ℚ) < 2 ^ q := zpow_pos (by norm_num) q
  rw [Reads, low_of l q hm, high_of]
  exact Within.mul_iff hunit

variable {m l q} in
theorem Reads.pos (hm : 0 < m) {x : ℚ} (h : (of l m q).Reads x) : 0 < x := by
  have hunit : (0 : ℚ) < 2 ^ q := zpow_pos (by norm_num) q
  have hfirst : (1 : ℚ) ≤ m := by exact_mod_cast hm
  rw [← div_mul_cancel₀ x hunit.ne', reads_of_iff l q hm] at h
  have hlow := h.bounds.1
  have hpos : 0 < x / 2 ^ q := by split at hlow <;> linarith
  exact (div_pos_iff_of_pos_right hunit).mp hpos

variable {m} in
/-- The number reads back, and so does all that is above it by less than half of its last place. -/
theorem reads_of (hm : 0 < m) {y : ℚ} (hle : m ≤ y) (hlt : y < m + 1 / 2) :
    (of l m q).Reads (y * 2 ^ q) := by
  refine (reads_of_iff l q hm).mpr (Within.of_open (lt_of_lt_of_le ?_ hle) hlt)
  split <;> linarith

end

/-! ## Grids -/

section

variable (hr : 0 < r.denominator)

include hr

theorem contains_iff (num : ℕ) {den : ℕ} (hden : 0 < den) :
    r.contains num den = true ↔ r.Reads (num / den) := by
  have hr' : (0 : ℚ) < r.denominator := by exact_mod_cast hr
  have hden' : (0 : ℚ) < den := by exact_mod_cast hden
  unfold contains Reads Within
  dsimp only
  split
  · rw [Bool.and_eq_true, decide_eq_true_eq, decide_eq_true_eq, div_le_div_iff₀ hr' hden',
      div_le_div_iff₀ hden' hr']
    norm_cast
  · rw [Bool.and_eq_true, decide_eq_true_eq, decide_eq_true_eq, div_lt_div_iff₀ hr' hden',
      div_lt_div_iff₀ hden' hr']
    norm_cast

/-- The two points of a grid beside the number are looked at, and one that reads back is taken, of
two the one that is nearer. -/
theorem exists_below (e : ℤ) : ∃ b : ℕ, b * 10 ^ e ≤ r.center ∧ r.center < (b + 1) * 10 ^ e ∧
    match r.onGrid e with
    | none => ¬ r.Reads (b * 10 ^ e) ∧ ¬ r.Reads ((b + 1) * 10 ^ e)
    | some d =>
      d = b ∧ r.Reads (b * 10 ^ e) ∧
          (r.Reads ((b + 1) * 10 ^ e) → r.center - b * 10 ^ e ≤ (b + 1) * 10 ^ e - r.center) ∨
        d = b + 1 ∧ r.Reads ((b + 1) * 10 ^ e) ∧
          (r.Reads (b * 10 ^ e) → (b + 1) * 10 ^ e - r.center ≤ r.center - b * 10 ^ e) := by
  have hreads (n : ℕ) : r.contains (scaleByPow10 n 1 e).1 (scaleByPow10 n 1 e).2 = true ↔
      r.Reads (n * 10 ^ e) := by
    rw [contains_iff hr _ (scaleByPow10_pos n Nat.one_pos e), scaleByPow10_div, Nat.cast_one,
      div_one]
  have hunit : (0 : ℚ) < 10 ^ e := zpow_pos (by norm_num) e
  have hscaled := scaleByPow10_div r.value r.denominator (-e)
  have hpos := scaleByPow10_pos r.value hr (-e)
  unfold onGrid
  generalize scaleByPow10 r.value r.denominator (-e) = scaled at *
  obtain ⟨t, hpart, hnonneg, hless, hhalf, -⟩ := exists_part scaled.1 hpos
  have hcenter : r.center = ((scaled.1 / scaled.2 : ℕ) + t) * 10 ^ e := by
    rw [← hpart, hscaled, mul_assoc, ← zpow_add₀ (by norm_num), neg_add_cancel, zpow_zero, mul_one,
      center]
  dsimp only
  have hbelow := hreads (scaled.1 / scaled.2)
  have habove := hreads (scaled.1 / scaled.2 + 1)
  rw [Nat.cast_add_one] at habove
  have hdown : r.center - (scaled.1 / scaled.2 : ℕ) * 10 ^ e = t * 10 ^ e := by
    rw [hcenter]
    ring
  have hup : ((scaled.1 / scaled.2 : ℕ) + 1) * 10 ^ e - r.center = (1 - t) * 10 ^ e := by
    rw [hcenter]
    ring
  refine ⟨scaled.1 / scaled.2, ?_, ?_, ?_⟩
  · rw [← sub_nonneg, hdown]
    exact mul_nonneg hnonneg hunit.le
  · rw [← sub_pos, hup]
    exact mul_pos (sub_pos.mpr hless) hunit
  · rw [hdown, hup, mul_le_mul_iff_left₀ hunit, mul_le_mul_iff_left₀ hunit]
    generalize r.contains (scaleByPow10 (scaled.1 / scaled.2) 1 e).1 _ = lower at hbelow ⊢
    generalize r.contains (scaleByPow10 (scaled.1 / scaled.2 + 1) 1 e).1 _ = upper at habove ⊢
    cases lower with
    | false =>
        cases upper with
        | false => exact ⟨by simpa using hbelow, by simpa using habove⟩
        | true => exact .inr ⟨rfl, habove.mp rfl, fun h ↦ absurd h (by simpa using hbelow)⟩
    | true =>
        cases upper with
        | false => exact .inl ⟨rfl, hbelow.mp rfl, fun h ↦ absurd h (by simpa using habove)⟩
        | true =>
            by_cases hnear : 2 * (scaled.1 % scaled.2) < scaled.2
            · rw [if_pos hnear]
              exact .inl ⟨rfl, hbelow.mp rfl, fun _ ↦ by linarith [hhalf.mp hnear]⟩
            · rw [if_neg hnear]
              exact .inr ⟨rfl, habove.mp rfl, fun _ ↦ by linarith [mt hhalf.mpr hnear]⟩

variable (hcenter : r.Reads r.center)

include hcenter

/-- Beyond the two points beside the number nothing else reads back, and all is further away. -/
theorem not_reads_of_onGrid {e : ℤ} (h : r.onGrid e = none) (k : ℕ) : ¬ r.Reads (k * 10 ^ e) := by
  have hunit : (0 : ℚ) ≤ 10 ^ e := zpow_nonneg (by norm_num) e
  obtain ⟨b, hb, hb', hgrid⟩ := exists_below hr e
  rw [h] at hgrid
  intro hk
  rcases Nat.lt_or_ge b k with hlt | hle
  · have hlt' : (b + 1 : ℚ) ≤ k := by exact_mod_cast hlt
    exact hgrid.2 (Within.of_between hcenter hk hb'.le (mul_le_mul_of_nonneg_right hlt' hunit))
  · have hle' : (k : ℚ) ≤ b := by exact_mod_cast hle
    exact hgrid.1 (Within.of_between hk hcenter (mul_le_mul_of_nonneg_right hle' hunit) hb)

theorem reads_of_onGrid {e : ℤ} {d : ℕ} (h : r.onGrid e = some d) :
    r.Reads (d * 10 ^ e) ∧
      ∀ k : ℕ, r.Reads (k * 10 ^ e) → |d * 10 ^ e - r.center| ≤ |k * 10 ^ e - r.center| := by
  have hunit : (0 : ℚ) ≤ 10 ^ e := zpow_nonneg (by norm_num) e
  obtain ⟨b, hb, hb', hgrid⟩ := exists_below hr e
  rw [h] at hgrid
  have hlower {k : ℕ} (hle : k ≤ b) (hk : r.Reads (k * 10 ^ e)) :
      r.Reads (b * 10 ^ e) ∧ r.center - b * 10 ^ e ≤ |k * 10 ^ e - r.center| := by
    have hle' : (k * 10 ^ e : ℚ) ≤ b * 10 ^ e :=
      mul_le_mul_of_nonneg_right (by exact_mod_cast hle) hunit
    refine ⟨Within.of_between hk hcenter hle' hb, ?_⟩
    rw [abs_sub_comm]
    exact (sub_le_sub_left hle' _).trans (le_abs_self _)
  have hupper {k : ℕ} (hlt : b < k) (hk : r.Reads (k * 10 ^ e)) :
      r.Reads ((b + 1) * 10 ^ e) ∧ (b + 1) * 10 ^ e - r.center ≤ |k * 10 ^ e - r.center| := by
    have hlt' : ((b + 1) * 10 ^ e : ℚ) ≤ k * 10 ^ e :=
      mul_le_mul_of_nonneg_right (by exact_mod_cast hlt) hunit
    refine ⟨Within.of_between hcenter hk hb'.le hlt', ?_⟩
    exact (sub_le_sub_right hlt' _).trans (le_abs_self _)
  rcases hgrid with ⟨rfl, hreads, hnear⟩ | ⟨rfl, hreads, hnear⟩
  · refine ⟨hreads, fun k hk ↦ ?_⟩
    rw [abs_sub_comm, abs_of_nonneg (sub_nonneg.mpr hb)]
    rcases Nat.lt_or_ge d k with hlt | hle
    · exact (hnear (hupper hlt hk).1).trans (hupper hlt hk).2
    · exact (hlower hle hk).2
  · rw [Nat.cast_add_one]
    refine ⟨hreads, fun k hk ↦ ?_⟩
    rw [abs_of_nonneg (sub_nonneg.mpr hb'.le)]
    rcases Nat.lt_or_ge b k with hlt | hle
    · exact (hupper hlt hk).2
    · exact (hnear (hlower hle hk).1).trans (hlower hle hk).2

end

/-! ## Searching -/

theorem search_eq_some {lead : ℤ} {tries n : ℕ} {D : DecimalForm}
    (h : r.search lead tries n = some D) :
    ∃ j, n ≤ j ∧ D.exponent = lead - j ∧ r.onGrid (lead - j) = some D.digits ∧
      ∀ i, n ≤ i → i < j → r.onGrid (lead - i) = none := by
  induction tries generalizing n with
  | zero => cases h
  | succ tries ih =>
      rw [search] at h
      split at h
      · next digits hgrid =>
          obtain rfl := Option.some.inj h
          exact ⟨n, le_rfl, rfl, hgrid, fun i hi hi' ↦ absurd hi' (not_lt.mpr hi)⟩
      · next hgrid =>
          obtain ⟨j, hj, hexponent, hfound, hnone⟩ := ih h
          refine ⟨j, Nat.le_of_succ_le hj, hexponent, hfound, fun i hi hi' ↦ ?_⟩
          rcases Nat.eq_or_lt_of_le hi with rfl | hlt
          · exact hgrid
          · exact hnone i hlt hi'

theorem search_eq_none {lead : ℤ} {tries n : ℕ} (h : r.search lead tries n = none) {i : ℕ}
    (hi : n ≤ i) (hi' : i < n + tries) : r.onGrid (lead - i) = none := by
  induction tries generalizing n with
  | zero => omega
  | succ tries ih =>
      rw [search] at h
      split at h
      · cases h
      · next hgrid =>
          rcases Nat.eq_or_lt_of_le hi with rfl | hlt
          · exact hgrid
          · exact ih h hlt (by omega)

/-- A decimal that reads back, with the fewest digits, and of all that have as many the nearest. -/
structure Shortest (r : ReadBack) (D : DecimalForm) : Prop where
  reads : r.Reads D.value
  least : ∀ D' : DecimalForm, r.Reads D'.value → decimalLength D.digits ≤ decimalLength D'.digits
  nearest : ∀ D' : DecimalForm, r.Reads D'.value →
    decimalLength D'.digits ≤ decimalLength D.digits → |D.value - r.center| ≤ |D'.value - r.center|

/-- For a decimal that reads back there is a point that is as near on a grid for as many digits. -/
theorem exists_point {lead : ℤ} (hcenter : r.Reads r.center) (hlead : 10 ^ lead ≤ r.center)
    {D : DecimalForm} (hD : r.Reads D.value) :
    ∃ i < decimalLength D.digits, ∃ k : ℕ, r.Reads (k * 10 ^ (lead - i)) ∧
      |k * 10 ^ (lead - i) - r.center| ≤ |D.value - r.center| := by
  obtain ⟨k, hk⟩ : ∃ k, decimalLength D.digits = k + 1 :=
    Nat.exists_eq_succ_of_ne_zero Nat.length_toDigits_pos.ne'
  rcases lt_or_ge D.value (10 ^ lead) with hlt | hle
  · -- the decimal has a digit less before its point, and the power of ten lies between
    refine ⟨0, by omega, 1, ?_, ?_⟩
    · rw [Nat.cast_one, one_mul, Nat.cast_zero, sub_zero]
      exact Within.of_between hD hcenter hlt.le hlead
    · rw [Nat.cast_one, one_mul, Nat.cast_zero, sub_zero, abs_sub_comm, abs_sub_comm D.value,
        abs_of_nonneg (sub_nonneg.mpr hlead)]
      exact (sub_le_sub_left hlt.le _).trans (le_abs_self _)
  · have hdigits : (D.digits : ℚ) < 10 ^ ((k + 1 : ℕ) : ℤ) := by
      rw [zpow_natCast, ← hk]
      exact_mod_cast lt_pow_decimalLength D.digits
    have hpow : (10 : ℚ) ^ lead < 10 ^ ((k + 1 : ℕ) + D.exponent) := by
      refine hle.trans_lt ?_
      rw [DecimalForm.value, zpow_add₀ (by norm_num)]
      exact mul_lt_mul_of_pos_right hdigits (zpow_pos (by norm_num) _)
    have hexponent := (zpow_lt_zpow_iff_right₀ (by norm_num)).mp hpow
    obtain ⟨n, hn⟩ := Int.eq_ofNat_of_zero_le (by omega : 0 ≤ D.exponent - (lead - k))
    have hvalue : ((D.digits * 10 ^ n : ℕ) : ℚ) * 10 ^ (lead - k) = D.value := by
      rw [DecimalForm.value, ← sub_add_cancel D.exponent (lead - k), hn, zpow_add₀ (by norm_num),
        zpow_natCast]
      push_cast
      ring
    refine ⟨k, by omega, D.digits * 10 ^ n, ?_, ?_⟩
    · rwa [hvalue]
    · rw [hvalue]

end ReadBack

theorem decimalLength_strip_le {n k : ℕ} (e : ℤ) (h : n ≤ 10 ^ (k + 1)) :
    decimalLength (DecimalForm.strip n e).digits ≤ k + 1 := by
  refine (Nat.length_toDigits_le_iff (by decide) (Nat.succ_pos k)).mpr ?_
  have hle := (DecimalForm.strip_digits_le n e).trans h
  exact lt_of_le_of_ne hle (DecimalForm.strip_digits_ne_pow n e k)

theorem shortest_of_search {r : ReadBack} (hr : 0 < r.denominator) (hcenter : r.Reads r.center)
    (hlead : 10 ^ leadingExponent r.value r.denominator ≤ r.center) {tries : ℕ} {D : DecimalForm}
    (h : r.search (leadingExponent r.value r.denominator) tries 0 = some D) :
    r.Shortest (.strip D.digits D.exponent) := by
  obtain ⟨j, -, hexponent, hfound, hnone⟩ := ReadBack.search_eq_some h
  obtain ⟨hreads, hnearest⟩ := ReadBack.reads_of_onGrid hr hcenter hfound
  have hlength := decimalLength_strip_le D.exponent (ReadBack.onGrid_le hr hfound)
  have hvalue : (DecimalForm.strip D.digits D.exponent).value =
      D.digits * 10 ^ (leadingExponent r.value r.denominator - j) := by
    rw [DecimalForm.strip_value, hexponent]
  -- the search would have ended before on the grid of a decimal with less digits
  have hgrid {i k : ℕ} (hk : r.Reads (k * 10 ^ (leadingExponent r.value r.denominator - i))) :
      j ≤ i := by
    by_contra hlt
    exact ReadBack.not_reads_of_onGrid hr hcenter (hnone i (Nat.zero_le i) (not_le.mp hlt)) k hk
  refine ⟨hvalue ▸ hreads, fun D' hD' ↦ ?_, fun D' hD' hle ↦ ?_⟩
  · obtain ⟨i, hi, k, hk, -⟩ := ReadBack.exists_point hcenter hlead hD'
    exact hlength.trans ((Nat.succ_le_succ (hgrid hk)).trans hi)
  · obtain ⟨i, hi, k, hk, hnear⟩ := ReadBack.exists_point hcenter hlead hD'
    obtain rfl : i = j := le_antisymm (by omega) (hgrid hk)
    rw [hvalue]
    exact (hnearest k hk).trans hnear

/-- The search ends, as the eighteenth grid is finer than half a unit of the last place of a
significand that is not too long. -/
theorem shortest_shortest (l : BinaryLayout) {m : ℕ} (q : ℤ) (hm : 0 < m) (hm' : 2 * m < 10 ^ 17) :
    (ReadBack.of l m q).Shortest (shortest l m q) := by
  have hr := ReadBack.denominator_pos l m q
  have hunit : (0 : ℚ) < 2 ^ q := zpow_pos (by norm_num) q
  have hcenter_eq := ReadBack.center_of l m q
  have hcenter : (ReadBack.of l m q).Reads (ReadBack.of l m q).center := by
    rw [hcenter_eq]
    exact ReadBack.reads_of l q hm le_rfl (by linarith)
  have hvalue : 0 < (ReadBack.of l m q).value := by
    rw [Nat.pos_iff_ne_zero]
    intro hzero
    rw [ReadBack.center, hzero, Nat.cast_zero, zero_div] at hcenter_eq
    have hpos : (0 : ℚ) < m * 2 ^ q := by positivity
    exact hpos.ne hcenter_eq
  have hlead := le_leadingExponent hvalue hr
  unfold shortest
  dsimp only
  split
  · next D hD => exact shortest_of_search hr hcenter hlead hD
  · next hnone =>
      have hgrid := ReadBack.search_eq_none hnone (i := 17) (by decide) (by decide)
      generalize hlead' : leadingExponent _ _ = lead at *
      obtain ⟨b, hb, hb', -⟩ := ReadBack.exists_below hr (lead - (17 : ℕ))
      refine absurd ?_ (ReadBack.not_reads_of_onGrid hr hcenter hgrid (b + 1))
      have hlong : (2 * m : ℚ) < 10 ^ 17 := by exact_mod_cast hm'
      have hstep : (10 : ℚ) ^ (lead - (17 : ℕ)) / 2 ^ q < 1 / 2 := by
        rw [div_lt_iff₀ hunit]
        rw [zpow_sub₀ (by norm_num), zpow_natCast, div_lt_iff₀ (by positivity)]
        calc (10 : ℚ) ^ lead
            ≤ m * 2 ^ q := hlead.trans_eq hcenter_eq
          _ < 10 ^ 17 / 2 * 2 ^ q := mul_lt_mul_of_pos_right (by linarith) hunit
          _ = 1 / 2 * 2 ^ q * 10 ^ 17 := by ring
      have hfirst : (m : ℚ) ≤ (b + 1 : ℕ) * 10 ^ (lead - (17 : ℕ)) / 2 ^ q := by
        rw [le_div_iff₀ hunit, ← hcenter_eq, Nat.cast_add_one]
        exact hb'.le
      have hlast : (b + 1 : ℕ) * 10 ^ (lead - (17 : ℕ)) / 2 ^ q < (m + 1 / 2 : ℚ) := by
        rw [Nat.cast_add_one, add_mul, one_mul, add_div]
        refine add_lt_add_of_le_of_lt ?_ hstep
        rw [div_le_iff₀ hunit, ← hcenter_eq]
        exact hb
      rw [← div_mul_cancel₀ ((b + 1 : ℕ) * (10 : ℚ) ^ (lead - (17 : ℕ))) hunit.ne']
      exact ReadBack.reads_of l q hm hfirst hlast

end PagedReport
