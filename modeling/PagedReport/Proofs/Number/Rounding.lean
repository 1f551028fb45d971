import Mathlib.Algebra.Order.Floor.Ring
import Mathlib.Data.Rat.Floor
import PagedReport.Data.NumberFormat
import PagedReport.Proofs.Number.DecimalValue
import PagedReport.Proofs.Number.Nearest

/-!
# Rounding of decimals

A number is formatted by the digits of its shortest decimal, and what comes out is a function of the
rational that these digits denote: an integer as it is, any other rounded to hundredths, a half
going away from zero.
-/

namespace PagedReport

/-! ## Amounts -/

/-- The nearest integer; of two the one that is further from zero. -/
def roundAway (x : ℚ) : ℤ := if x < 0 then -⌊-x + 1 / 2⌋ else ⌊x + 1 / 2⌋

theorem roundAway_nonneg {x : ℚ} (hx : 0 ≤ x) : roundAway x = ⌊x + 1 / 2⌋ := by
  rw [roundAway, if_neg (not_lt.mpr hx)]

theorem roundAway_neg (x : ℚ) : roundAway (-x) = -roundAway x := by
  unfold roundAway
  rcases lt_trichotomy x 0 with hx | rfl | hx
  · rw [if_neg (by linarith), if_pos hx, neg_neg]
  · norm_num
  · rw [if_pos (by linarith), if_neg (by linarith), neg_neg]

theorem abs_roundAway_sub_le (x : ℚ) : |roundAway x - x| ≤ 1 / 2 := by
  wlog hx : 0 ≤ x generalizing x
  · have hneg := this (-x) (by linarith)
    rw [roundAway_neg, Int.cast_neg, ← neg_add', abs_neg] at hneg
    rwa [sub_eq_add_neg]
  · rw [roundAway_nonneg hx, abs_le]
    constructor <;> linarith [Int.floor_le (x + 1 / 2), Int.lt_floor_add_one (x + 1 / 2)]

/-- A half goes away from zero. -/
theorem abs_lt_abs_roundAway {x : ℚ} (hx : |roundAway x - x| = 1 / 2) :
    |x| < |(roundAway x : ℚ)| := by
  wlog hpos : 0 ≤ x generalizing x
  · have hneg := this (x := -x) (by
      rw [roundAway_neg, Int.cast_neg, ← neg_add', abs_neg]
      rwa [sub_eq_add_neg] at hx) (by linarith)
    rwa [roundAway_neg, Int.cast_neg, abs_neg, abs_neg] at hneg
  · rw [roundAway_nonneg hpos] at hx ⊢
    have hlt := Int.lt_floor_add_one (x + 1 / 2)
    rcases abs_eq (by norm_num) |>.mp hx with h | h
    · rw [abs_of_nonneg hpos, abs_of_nonneg (by linarith)]
      linarith
    · linarith

/-- A rational number as it stands in a report. -/
def amount (q : ℚ) : String :=
  if q.den = 1 then toString q.num
  else
    let h := roundAway (100 * q)
    (if h < 0 then "-" else "") ++ toString (h.natAbs / 100) ++ "." ++
      String.ofList (Decimal.twoDigits (h.natAbs % 100))

namespace Decimal

variable {d : Decimal}

/-! ## Hundredths -/

variable (d) in
/-- The hundredths that are reached. -/
def below : ℕ := number d.whole * 100 + d.place 0 * 10 + d.place 1

variable (d) in
/-- The nearest number of hundredths, a half going up. -/
def rounded : ℕ := if 5 ≤ d.place 2 then d.below + 1 else d.below

theorem foldl_word (ds : List ℕ) :
    ds.foldl (fun n x ↦ n * 10 + BitVec.ofNat 128 x) 0 = BitVec.ofNat 128 (number ds) := by
  induction ds using List.reverseRecOn with
  | nil => rfl
  | append_singleton ds d ih =>
      rw [List.foldl_concat, ih, number_concat, BitVec.ofNat_add, BitVec.ofNat_mul]
      rfl

/-- No sum is too large for a word if the last one is not. -/
theorem toNat_hundredths (h : d.below + 1 < 2 ^ 128) : d.hundredths.toNat = d.rounded := by
  have hbelow : d.whole.foldl (fun n x ↦ n * 10 + BitVec.ofNat 128 x) 0 * 100 +
      BitVec.ofNat 128 (d.place 0) * 10 + BitVec.ofNat 128 (d.place 1) =
      BitVec.ofNat 128 d.below := by
    rw [foldl_word, below, BitVec.ofNat_add, BitVec.ofNat_add, BitVec.ofNat_mul, BitVec.ofNat_mul]
    rfl
  have hword : d.hundredths = BitVec.ofNat 128 d.rounded := by
    unfold hundredths rounded
    dsimp only
    rw [hbelow]
    split
    · rw [BitVec.ofNat_add]
      rfl
    · rfl
  rw [hword, BitVec.toNat_ofNat, Nat.mod_eq_of_lt]
  unfold rounded
  split <;> omega

/-- Three digits after the point, and what is left. -/
theorem exists_rest {fs : List ℕ} (h : Digits fs) :
    ∃ rest < 10 ^ fs.length, number fs * 1000 =
      (fs.getD 0 0 * 100 + fs.getD 1 0 * 10 + fs.getD 2 0) * 10 ^ fs.length + rest := by
  match fs with
  | [] => exact ⟨0, Nat.one_pos, rfl⟩
  | [a] => exact ⟨0, by simp, by simp [number]; ring⟩
  | [a, b] => exact ⟨0, by simp, by simp [number]; ring⟩
  | a :: b :: c :: rest =>
      have hrest := number_lt (h.of_subset (List.subset_append_right [a, b, c] rest))
      have hnumber : number (a :: b :: c :: rest) =
          (a * 100 + b * 10 + c) * 10 ^ rest.length + number rest := by
        have happend := number_append [a, b, c] rest
        have hfirst : number [a, b, c] = a * 100 + b * 10 + c := by
          simp [number]
          ring
        rwa [hfirst] at happend
      refine ⟨number rest * 1000, ?_, ?_⟩
      · rw [List.length_cons, List.length_cons, List.length_cons, Nat.pow_add_one, Nat.pow_add_one,
          Nat.pow_add_one]
        omega
      · rw [hnumber]
        simp
        ring

theorem place_lt (hd : Digits d.digits) (i : ℕ) : d.place i < 10 := by
  rw [place, List.getD_eq_getElem?_getD]
  cases hx : d.fraction[i]? with
  | none => exact Nat.succ_pos 9
  | some x => exact hd.fraction x (List.mem_of_getElem? hx)

theorem floor_hundredths (hd : Digits d.digits) :
    ⌊100 * d.magnitude + 1 / 2⌋ = (d.rounded : ℤ) := by
  obtain ⟨rest, hrest, hplaces⟩ := exists_rest hd.fraction
  rw [length_fraction] at hrest hplaces
  -- what is left is a part of a tenth of a hundredth
  have hunit : (0 : ℚ) < 10 ^ d.places := by positivity
  have hpart : (rest : ℚ) / 10 ^ d.places < 1 := by
    rw [div_lt_one hunit]
    exact_mod_cast hrest
  have hpart' : 0 ≤ (rest : ℚ) / 10 ^ d.places := by positivity
  have hvalue : 100 * d.magnitude = d.below + (d.place 2 + rest / 10 ^ d.places) / 10 := by
    have hplaces' : (number d.fraction * 1000 : ℚ) =
        (d.place 0 * 100 + d.place 1 * 10 + d.place 2) * 10 ^ d.places + rest := by
      exact_mod_cast hplaces
    rw [magnitude, number_digits, below]
    push_cast
    field_simp
    linarith
  rw [Int.floor_eq_iff, hvalue, rounded]
  split
  · next hup =>
      have hup' : (5 : ℚ) ≤ d.place 2 := by exact_mod_cast hup
      have hplace : (d.place 2 : ℚ) ≤ 9 := by exact_mod_cast Nat.le_of_lt_succ (place_lt hd 2)
      push_cast
      constructor <;> linarith
  · next hdown =>
      have hdown' : (d.place 2 : ℚ) ≤ 4 := by exact_mod_cast (by omega : d.place 2 ≤ 4)
      push_cast
      constructor <;> linarith

/-! ## Texts -/

theorem amount_intCast (n : ℤ) : amount n = toString n := by
  rw [amount, if_pos (Rat.den_intCast n), Rat.num_intCast]

theorem toString_neg {n : ℕ} (hn : n ≠ 0) :
    toString (-(n : ℤ)) = "-" ++ String.ofList (Nat.toDigits 10 n) := by
  obtain ⟨k, rfl⟩ := Nat.exists_eq_succ_of_ne_zero hn
  exact congrArg ("-" ++ ·) Nat.repr_eq_ofList_toDigits

theorem text_integral (hd : Digits d.digits) (h : number d.fraction = 0) :
    d.text = amount d.value := by
  have hvalue : d.value =
      ((if d.negative then -(number d.whole : ℤ) else number d.whole : ℤ) : ℚ) := by
    unfold value
    split <;> simp [magnitude_of_integral d h]
  rw [hvalue, amount_intCast, text, if_pos (d.isIntegral_iff.mpr h)]
  dsimp only
  by_cases hzero : number d.whole = 0
  · rw [dropWhile_eq_nil.mpr hzero, hzero]
    cases d.negative <;> rfl
  · have hdigits := toDigits_number hd.whole hzero
    have hsome : (d.whole.dropWhile (· == 0)).isEmpty = false := by
      rw [List.isEmpty_eq_false_iff]
      exact mt dropWhile_eq_nil.mp hzero
    rw [hsome, if_neg (by decide), ← hdigits]
    cases d.negative with
    | true => exact (toString_neg hzero).symm
    | false =>
        rw [if_neg (by decide), if_neg (by decide), String.empty_append]
        exact Nat.repr_eq_ofList_toDigits.symm

theorem text_rounded (hd : Digits d.digits) (h : number d.fraction ≠ 0)
    (hword : d.below + 1 < 2 ^ 128) : d.text = amount d.value := by
  have hden : d.value.den ≠ 1 := fun hone ↦
    value_ne_intCast hd h d.value.num ((Rat.den_eq_one_iff _).mp hone).symm
  have hnumber : 0 < number d.digits := by
    rw [number_digits]
    omega
  have hmagnitude : 0 < 100 * d.magnitude := by
    have hpos : (0 : ℚ) < number d.digits := by exact_mod_cast hnumber
    unfold magnitude
    positivity
  have hround : roundAway (100 * d.value) =
      if d.negative then -(d.rounded : ℤ) else d.rounded := by
    unfold value
    split
    · rw [mul_neg, roundAway_neg, roundAway_nonneg hmagnitude.le, floor_hundredths hd]
    · rw [roundAway_nonneg hmagnitude.le, floor_hundredths hd]
  rw [text, if_neg (mt d.isIntegral_iff.mp h), roundedText, amount, if_neg hden]
  dsimp only
  rw [hround, toNat_hundredths hword]
  have hsize : (if d.negative then -(d.rounded : ℤ) else d.rounded).natAbs = d.rounded := by
    split <;> omega
  have hsign : ((if d.negative then -(d.rounded : ℤ) else d.rounded) < 0) ↔
      (d.negative && d.rounded != 0) = true := by
    cases d.negative with
    | false => simp
    | true => simp [Nat.pos_iff_ne_zero]
  rw [hsize]
  simp only [hsign]

/-! ## Words -/

/-- The digits after the point are there, and no sum on the way to the hundredths is too large for a
word. -/
structure Fits (d : Decimal) : Prop where
  inRange : d.places ≤ d.digits.length
  whole : d.isIntegral = false → ∀ ds, ds <+: d.whole → number ds < 2 ^ 128
  below : d.isIntegral = false → d.below + 1 < 2 ^ 128

theorem Fits.of_whole (hd : Digits d.digits)
    (h : d.isIntegral = false → number d.whole ≤ 10 ^ 18) : Fits d where
  inRange := d.inRange
  whole hpart ds hds := by
    obtain ⟨rest, heq⟩ := hds
    have hwhole := h hpart
    rw [← heq, number_append] at hwhole
    have hpow : number ds * 1 ≤ number ds * 10 ^ rest.length :=
      Nat.mul_le_mul_left _ (Nat.one_le_pow _ _ (by decide))
    norm_num at hwhole hpow ⊢
    omega
  below hpart := by
    have hwhole := h hpart
    have hfirst := place_lt hd 0
    have hsecond := place_lt hd 1
    unfold Decimal.below
    norm_num at hwhole ⊢
    omega

theorem text_eq (hd : Digits d.digits) (hfits : Fits d) : d.text = amount d.value := by
  by_cases h : number d.fraction = 0
  · exact text_integral hd h
  · have hpart : d.isIntegral = false := by
      rw [← Bool.not_eq_true]
      exact mt d.isIntegral_iff.mp h
    exact text_rounded hd h (hfits.below hpart)

/-- Wherever the point is moved, what is left before it when there are digits after it is small. -/
theorem fits_shift {D : DecimalForm} (negative : Bool)
    (hD : D.exponent < 0 → D.digits ≤ 10 ^ 18) (places : ℕ) :
    Fits ((ofText negative D.positional.toList).shift places) := by
  generalize hd : (ofText negative D.positional.toList).shift places = d
  have hdigits : Digits d.digits := hd ▸ digits_shift (digits_ofText negative) places
  have hmagnitude : d.magnitude = D.digits * 10 ^ (D.exponent + places) := by
    rw [← hd, magnitude_shift, magnitude_ofText, DecimalForm.value, zpow_add₀ (by norm_num),
      zpow_natCast]
    ring
  refine .of_whole hdigits fun hpart ↦ ?_
  rcases lt_or_ge (D.exponent + places) 0 with hneg | hpos
  · have hpow : (10 : ℚ) ^ (D.exponent + places) ≤ 1 :=
      zpow_le_one_of_nonpos₀ (by norm_num) hneg.le
    have hle : d.magnitude ≤ 10 ^ 18 := by
      calc d.magnitude
          = D.digits * 10 ^ (D.exponent + places) := hmagnitude
        _ ≤ D.digits * 1 := mul_le_mul_of_nonneg_left hpow (Nat.cast_nonneg _)
        _ ≤ 10 ^ 18 := by
          rw [mul_one]
          exact_mod_cast hD (by omega)
    have hwhole := number_whole_le.trans hle
    exact_mod_cast hwhole
  · -- the point is behind all digits
    obtain ⟨k, hk⟩ := Int.eq_ofNat_of_zero_le hpos
    have hfraction : number d.fraction ≠ 0 := by
      rw [Ne, ← isIntegral_iff, hpart]
      decide
    refine absurd ?_ (magnitude_ne_intCast hdigits hfraction (D.digits * 10 ^ k))
    rw [hmagnitude, hk, zpow_natCast]
    push_cast
    rfl

end Decimal

/-! ## Formats -/

namespace NumberFormat

/-- The rational that the decimal of a double denotes. -/
def denoted (negative : Bool) (m : ℕ) (q : ℤ) : ℚ :=
  if negative then -(decimalForm m q).value else (decimalForm m q).value

theorem text_decimalForm (m : ℕ) (q : ℤ) :
    (BinaryValue.finite false m q).text .double = (decimalForm m q).positional := by
  change (if m = 0 then "0" else "" ++ (shortest .double m q).positional) = _
  unfold decimalForm
  split
  · rfl
  · exact String.empty_append

theorem decimalForm_digits_le (m : ℕ) (q : ℤ) (h : (decimalForm m q).exponent < 0) :
    (decimalForm m q).digits ≤ 10 ^ 18 := by
  unfold decimalForm at h ⊢
  split at h
  · exact absurd h (lt_irrefl 0)
  · next hm =>
      rw [if_neg hm]
      exact shortest_digits_le .double m q h

theorem ofBinary_value (negative : Bool) (m : ℕ) (q : ℤ) :
    (Decimal.ofText (negative && m != 0) (decimalForm m q).positional.toList).value =
      denoted negative m q := by
  rw [Decimal.value_ofText, denoted]
  by_cases hm : m = 0
  · have hzero : (decimalForm m q).value = 0 := by
      rw [decimalForm, if_pos hm]
      exact zero_mul _
    rw [hzero, neg_zero]
    simp
  · simp [hm]

/-- The decimal of a finite number, wherever its point is moved. -/
theorem exists_ofBinary (negative : Bool) (m : ℕ) (q : ℤ) :
    ∃ d, Decimal.ofBinary (.finite negative m q) = some d ∧ ∀ places : ℕ,
      (d.shift places).Fits ∧
        (d.shift places).text = amount (10 ^ places * denoted negative m q) := by
  refine ⟨_, rfl, fun places ↦ ?_⟩
  rw [text_decimalForm]
  have hfits :=
    Decimal.fits_shift (negative && m != 0) (decimalForm_digits_le m q) places
  have hdigits := Decimal.digits_ofText (D := decimalForm m q) (negative && m != 0)
  refine ⟨hfits, ?_⟩
  rw [Decimal.text_eq (Decimal.digits_shift hdigits places) hfits, Decimal.value_shift,
    ofBinary_value]

theorem format_finite (f : NumberFormat) (negative : Bool) (m : ℕ) (q : ℤ) :
    f.format (.finite negative m q) =
      f.decorate (amount (if f = .percent then 100 * denoted negative m q
        else denoted negative m q)) := by
  obtain ⟨d, hbinary, htext⟩ := exists_ofBinary negative m q
  have hplain := (htext 0).2
  have hpercent := (htext 2).2
  rw [Decimal.shift_zero, pow_zero, one_mul] at hplain
  norm_num at hpercent
  unfold format
  rw [hbinary]
  dsimp only
  split
  · rw [hpercent]
  · rw [hplain]

/-- A finite number is formatted as the rational that the shortest decimal which is read as it
denotes, a percentage as a hundred times as much, and no digit or sum is out of range on the way. -/
theorem formatDouble_exact (x : Float) :
    match doubleValue x with
    | .finite negative m e =>
      let q := denoted negative m e
      (decimalForm m e).Represents x (m * 2 ^ e) ∧
        plain.formatDouble x = amount q ∧
        currency.formatDouble x = "$" ++ amount q ∧
        percent.formatDouble x = amount (100 * q) ++ "%" ∧
        ∀ d ∈ Decimal.ofBinary (doubleValue x), d.Fits ∧ (d.shift 2).Fits
    | _ => True := by
  cases hx : doubleValue x with
  | nan => trivial
  | infinite negative => trivial
  | finite negative m e =>
      obtain ⟨d, hbinary, htext⟩ := exists_ofBinary negative m e
      refine ⟨DecimalForm.represents hx, ?_, ?_, ?_, fun d' hd' ↦ ?_⟩
      · rw [formatDouble, hx, format_finite]
        rfl
      · rw [formatDouble, hx, format_finite]
        rfl
      · rw [formatDouble, hx, format_finite]
        rfl
      · rw [hbinary, Option.mem_some_iff] at hd'
        rw [← hd']
        exact ⟨d.shift_zero ▸ (htext 0).1, (htext 2).1⟩

-- neither a carry nor a sign that is left without an amount
example : amount (99999 / 1000) = "100.00" ∧ amount (-1 / 1000) = "0.00" := by decide +kernel

end NumberFormat

end PagedReport
