import Mathlib.Algebra.Order.Field.Power
import PagedReport.Proofs.Number.Digits
import PagedReport.Proofs.Number.ShortestDigits

/-!
# What a decimal stands for

The digits of a decimal and the place of its point denote a rational number.  Reading the positional
text of a number gives the number, and moving the point multiplies it.
-/

namespace PagedReport

namespace Decimal

variable (d : Decimal)

def magnitude : ℚ := number d.digits / 10 ^ d.places

def value : ℚ := if d.negative then -d.magnitude else d.magnitude

/-! ## Digits before and after the point -/

theorem length_fraction : d.fraction.length = d.places := by
  have hrange := d.inRange
  rw [fraction, List.length_drop]
  omega

theorem number_digits :
    number d.digits = number d.whole * 10 ^ d.places + number d.fraction := by
  rw [← length_fraction, ← number_append]
  exact congrArg number (List.take_append_drop ..).symm

variable {d} in
theorem Digits.whole (hd : Digits d.digits) : Digits d.whole := hd.of_subset (List.take_subset ..)

variable {d} in
theorem Digits.fraction (hd : Digits d.digits) : Digits d.fraction :=
  hd.of_subset (List.drop_subset ..)

theorem isIntegral_iff : d.isIntegral = true ↔ number d.fraction = 0 := by
  rw [isIntegral, List.all_eq_true, number_eq_zero]
  simp only [beq_iff_eq]

theorem magnitude_of_integral (h : number d.fraction = 0) : d.magnitude = number d.whole := by
  rw [magnitude, number_digits, h, Nat.add_zero, Nat.cast_mul, Nat.cast_pow, Nat.cast_ofNat,
    mul_div_cancel_right₀ _ (by positivity)]

variable {d}

theorem magnitude_ne_intCast (hd : Digits d.digits) (h : number d.fraction ≠ 0) (n : ℤ) :
    d.magnitude ≠ n := by
  have hpart : number d.fraction < 10 ^ d.places := by
    rw [← length_fraction]
    exact number_lt hd.fraction
  intro heq
  rw [magnitude, div_eq_iff (by positivity), number_digits] at heq
  have hsum : (number d.whole * 10 ^ d.places + number d.fraction : ℤ) = n * 10 ^ d.places := by
    exact_mod_cast heq
  have hdvd : (10 ^ d.places : ℤ) ∣ number d.fraction := ⟨n - number d.whole, by linarith⟩
  have hle := Nat.le_of_dvd (Nat.pos_of_ne_zero h) (by exact_mod_cast hdvd)
  omega

theorem value_ne_intCast (hd : Digits d.digits) (h : number d.fraction ≠ 0) (n : ℤ) :
    d.value ≠ n := by
  unfold value
  split
  · intro heq
    refine magnitude_ne_intCast hd h (-n) ?_
    rw [Int.cast_neg, ← heq, neg_neg]
  · exact magnitude_ne_intCast hd h n

theorem number_whole_le : (number d.whole : ℚ) ≤ d.magnitude := by
  rw [magnitude, number_digits, le_div_iff₀ (by positivity)]
  push_cast
  linarith [(Nat.cast_nonneg (number d.fraction) : (0 : ℚ) ≤ number d.fraction)]

/-! ## Moving the point -/

theorem shift_negative (places : ℕ) : (d.shift places).negative = d.negative := by
  unfold shift
  split <;> rfl

theorem digits_shift (hd : Digits d.digits) (places : ℕ) : Digits (d.shift places).digits := by
  unfold shift
  split
  · exact hd
  · refine hd.append fun e he ↦ ?_
    rw [(List.mem_replicate.mp he).2]
    exact Nat.succ_pos 9

theorem shift_zero (d : Decimal) : d.shift 0 = d := by
  unfold shift
  rw [if_pos (Nat.zero_le _)]
  rfl

theorem magnitude_shift (places : ℕ) : (d.shift places).magnitude = 10 ^ places * d.magnitude := by
  unfold shift magnitude
  split
  · next hle =>
      have hpow : (10 : ℚ) ^ d.places = 10 ^ places * 10 ^ (d.places - places) := by
        rw [← pow_add, Nat.add_sub_cancel' hle]
      dsimp only
      rw [hpow]
      field_simp
  · next hlt =>
      have hpow : (10 : ℚ) ^ places = 10 ^ (places - d.places) * 10 ^ d.places := by
        rw [← pow_add, Nat.sub_add_cancel (by omega)]
      dsimp only
      rw [number_append, number_replicate_zero, List.length_replicate, hpow]
      push_cast
      field_simp
      simp

theorem value_shift (places : ℕ) : (d.shift places).value = 10 ^ places * d.value := by
  unfold value
  rw [shift_negative, magnitude_shift]
  split
  · rw [mul_neg]
  · rfl

/-! ## Reading a positional text -/

/-- A text of digits with a point among them, or none if there is no fraction. -/
structure Written (text whole fraction : List Char) : Prop where
  before : ∀ c ∈ whole, c.isDigit
  after : ∀ c ∈ fraction, c.isDigit
  form : text = whole ++ '.' :: fraction ∨ text = whole ∧ fraction = []

def withoutZeros (fraction : List Char) : List Char :=
  (fraction.reverse.dropWhile (· == '0')).reverse

theorem withoutZeros_append (fraction : List Char) :
    ∃ zeros, (∀ c ∈ zeros, c = '0') ∧ fraction = withoutZeros fraction ++ zeros := by
  refine ⟨(fraction.reverse.takeWhile (· == '0')).reverse, fun c hc ↦ ?_, ?_⟩
  · have hzero := List.mem_takeWhile_imp (List.mem_reverse.mp hc)
    exact beq_iff_eq.mp hzero
  · rw [withoutZeros, ← List.reverse_append, List.takeWhile_append_dropWhile, List.reverse_reverse]

theorem number_zeros {zeros : List Char} (h : ∀ c ∈ zeros, c = '0') :
    number (zeros.map digitOf) = 0 := by
  rw [number_eq_zero]
  intro d hd
  obtain ⟨c, hc, rfl⟩ := List.mem_map.mp hd
  rw [h c hc]
  rfl

/-- Zeros at the end multiply by powers of ten. -/
theorem number_append_zeros (cs : List Char) {zeros : List Char} (h : ∀ c ∈ zeros, c = '0') :
    number ((cs ++ zeros).map digitOf) = number (cs.map digitOf) * 10 ^ zeros.length := by
  rw [List.map_append, number_append, number_zeros h, List.length_map, Nat.add_zero]

theorem isDigit_ne_point {c : Char} (hc : c.isDigit) : (c != '.') = true := by
  rw [bne_iff_ne]
  rintro rfl
  cases hc

theorem digitOf_lt {c : Char} (hc : c.isDigit) : digitOf c < 10 := by
  have hlast : c.toNat ≤ 57 := by
    simp only [Char.isDigit, Bool.and_eq_true, decide_eq_true_eq] at hc
    exact hc.2
  unfold digitOf
  omega

namespace Written

variable {text whole fraction : List Char}

theorem ofText_eq (h : Written text whole fraction) (negative : Bool) :
    (ofText negative text).digits = (whole ++ withoutZeros fraction).map digitOf ∧
      (ofText negative text).places = (withoutZeros fraction).length := by
  have hwhole : ∀ c ∈ whole, (c != '.') = true := fun c hc ↦ isDigit_ne_point (h.before c hc)
  have hspan : ∃ rest, text.span (· != '.') = (whole, rest) ∧ rest.drop 1 = fraction := by
    rw [List.span_eq_takeWhile_dropWhile]
    rcases h.form with rfl | ⟨rfl, rfl⟩
    · refine ⟨'.' :: fraction, ?_, rfl⟩
      rw [List.takeWhile_append_of_pos hwhole, List.dropWhile_append_of_pos hwhole]
      simp
    · refine ⟨[], ?_, rfl⟩
      rw [List.takeWhile_eq_self_iff.mpr hwhole, List.dropWhile_eq_nil_iff.mpr hwhole]
  obtain ⟨rest, hsplit, hrest⟩ := hspan
  unfold ofText
  rw [hsplit]
  dsimp only
  rw [hrest]
  exact ⟨rfl, rfl⟩

theorem magnitude_eq (h : Written text whole fraction) (negative : Bool) :
    (ofText negative text).magnitude =
      number ((whole ++ fraction).map digitOf) / 10 ^ fraction.length := by
  obtain ⟨hdigits, hplaces⟩ := h.ofText_eq negative
  obtain ⟨zeros, hzeros, heq⟩ := withoutZeros_append fraction
  have hnumber := number_append_zeros (whole ++ withoutZeros fraction) hzeros
  rw [List.append_assoc, ← heq] at hnumber
  have hlength : fraction.length = (withoutZeros fraction).length + zeros.length := by
    conv_lhs => rw [heq]
    exact List.length_append
  rw [magnitude, hdigits, hplaces, hnumber, hlength, pow_add]
  push_cast
  field_simp

theorem digits (h : Written text whole fraction) (negative : Bool) :
    Digits (ofText negative text).digits := by
  rw [(h.ofText_eq negative).1]
  intro d hd
  obtain ⟨c, hc, rfl⟩ := List.mem_map.mp hd
  rcases List.mem_append.mp hc with hc | hc
  · exact digitOf_lt (h.before c hc)
  · obtain ⟨zeros, -, heq⟩ := withoutZeros_append fraction
    exact digitOf_lt (h.after c (heq ▸ List.mem_append_left _ hc))

end Written

theorem isDigit_toDigits {n : ℕ} {c : Char} (hc : c ∈ Nat.toDigits 10 n) : c.isDigit :=
  Nat.isDigit_of_mem_toDigits (by decide) (by decide) hc

theorem isDigit_replicate {n : ℕ} {c : Char} (hc : c ∈ List.replicate n '0') : c.isDigit := by
  rw [(List.mem_replicate.mp hc).2]
  rfl

/-- What is printed without an exponent is read as what it stands for. -/
theorem written_positional (D : DecimalForm) :
    ∃ whole fraction, Written D.positional.toList whole fraction ∧
      D.value = number ((whole ++ fraction).map digitOf) / 10 ^ fraction.length := by
  obtain ⟨n, e⟩ := D
  cases e with
  | ofNat k =>
      let zeros := List.replicate (if n = 0 then 0 else k) '0'
      refine ⟨Nat.toDigits 10 n ++ zeros, [], ⟨?_, nofun, .inr ⟨?_, rfl⟩⟩, ?_⟩
      · intro c hc
        exact (List.mem_append.mp hc).elim isDigit_toDigits isDigit_replicate
      · unfold DecimalForm.positional
        rw [String.toList_ofList]
        by_cases hn : n = 0 <;> simp [hn, zeros]
      · have hzeros : ∀ c ∈ zeros, c = '0' := fun c hc ↦ (List.mem_replicate.mp hc).2
        rw [List.append_nil, number_append_zeros _ hzeros, number_toDigits, List.length_replicate,
          DecimalForm.value]
        by_cases hn : n = 0 <;> simp [hn]
  | negSucc k =>
      let zeros := List.replicate (k + 2 - (Nat.toDigits 10 n).length) '0'
      let padded := zeros ++ Nat.toDigits 10 n
      have hpadded : ∀ c ∈ padded, c.isDigit := fun c hc ↦
        (List.mem_append.mp hc).elim isDigit_replicate isDigit_toDigits
      have hlength : k + 2 ≤ padded.length := by
        rw [List.length_append, List.length_replicate]
        omega
      refine ⟨padded.take (padded.length - (k + 1)), padded.drop (padded.length - (k + 1)),
        ⟨fun c hc ↦ hpadded c (List.take_subset _ _ hc),
          fun c hc ↦ hpadded c (List.drop_subset _ _ hc), .inl ?_⟩, ?_⟩
      · exact String.toList_ofList
      · have hnumber : number (padded.map digitOf) = n := by
          have hzeros : ∀ c ∈ zeros, c = '0' := fun c hc ↦ (List.mem_replicate.mp hc).2
          rw [List.map_append, number_append, number_zeros hzeros, number_toDigits, Nat.zero_mul,
            Nat.zero_add]
        have hplaces : (padded.drop (padded.length - (k + 1))).length = k + 1 := by
          rw [List.length_drop]
          omega
        rw [List.take_append_drop, hnumber, hplaces, DecimalForm.value]
        dsimp only
        rw [zpow_negSucc, div_eq_mul_inv]

section

variable {D : DecimalForm} (negative : Bool)

theorem digits_ofText : Digits (ofText negative D.positional.toList).digits := by
  obtain ⟨whole, fraction, hwritten, -⟩ := written_positional D
  exact hwritten.digits negative

theorem magnitude_ofText : (ofText negative D.positional.toList).magnitude = D.value := by
  obtain ⟨whole, fraction, hwritten, hvalue⟩ := written_positional D
  rw [hvalue, hwritten.magnitude_eq]

theorem value_ofText : (ofText negative D.positional.toList).value =
    if negative then -D.value else D.value := by
  rw [value, magnitude_ofText]
  rfl

end

end Decimal

end PagedReport
