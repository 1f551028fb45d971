import PagedReport.Data.Json
import PagedReport.Proofs.Number.Integers

/-!
# Integers in data

An integer that is written by its digits is read as it is; behind a point it is read as a double.
Both are formatted alike as long as the double is the integer.
-/

namespace PagedReport

open BinaryLayout

/-! ## Decimals that are integers -/

section

variable {n digits : ℕ} {exponent : ℤ} (hvalue : (digits : ℚ) * 10 ^ exponent = n)

include hvalue

theorem leadingExponent_le (hdigits : 0 < digits) (hn : n ≤ 2 ^ 53) :
    exponent + decimalLength digits ≤ 16 := by
  have hlength : 0 < decimalLength digits := Nat.length_toDigits_pos
  have hunit : (0 : ℚ) < 10 ^ exponent := zpow_pos (by norm_num) exponent
  have hlt : (10 : ℚ) ^ (exponent + decimalLength digits - 1) < 10 ^ (16 : ℤ) := by
    calc (10 : ℚ) ^ (exponent + decimalLength digits - 1)
        = 10 ^ (decimalLength digits - 1) * 10 ^ exponent := by
          rw [← zpow_natCast, ← zpow_add₀ (by norm_num)]
          congr 1
          omega
      _ ≤ digits * 10 ^ exponent :=
          mul_le_mul_of_nonneg_right (by exact_mod_cast pow_decimalLength_le hdigits) hunit.le
      _ = n := hvalue
      _ ≤ (2 ^ 53 : ℕ) := by exact_mod_cast hn
      _ < 10 ^ (16 : ℤ) := by norm_num
  have hexponent := (zpow_lt_zpow_iff_right₀ (by norm_num)).mp hlt
  omega

theorem leadingExponent_pos (hdigits : 0 < digits) : 0 < exponent + decimalLength digits := by
  have hunit : (0 : ℚ) < 10 ^ exponent := zpow_pos (by norm_num) exponent
  have hone : (1 : ℚ) ≤ n := by
    have hpos : (0 : ℚ) < n := hvalue ▸ mul_pos (by exact_mod_cast hdigits) hunit
    exact_mod_cast hpos
  have hlt : (10 : ℚ) ^ (0 : ℤ) < 10 ^ (exponent + decimalLength digits) := by
    calc (10 : ℚ) ^ (0 : ℤ) ≤ digits * 10 ^ exponent := by rwa [zpow_zero, hvalue]
      _ < 10 ^ decimalLength digits * 10 ^ exponent :=
          mul_lt_mul_of_pos_right (by exact_mod_cast lt_pow_decimalLength digits) hunit
      _ = 10 ^ (exponent + decimalLength digits) := by
          rw [← zpow_natCast, ← zpow_add₀ (by norm_num), add_comm]
  exact (zpow_lt_zpow_iff_right₀ (by norm_num)).mp hlt

/-- A decimal that is an integer is read as the double that is this integer. -/
theorem doubleValue_decimalToDouble (negative : Bool) {m : ℕ} {q : ℤ} (h : Whole n m q)
    (hn : n ≤ 2 ^ 53) :
    doubleValue (decimalToDouble negative digits exponent) = .finite negative m q ∧
      (decimalToDouble negative digits exponent).isFinite = true := by
  unfold decimalToDouble
  dsimp only
  rcases Nat.eq_zero_or_pos digits with rfl | hdigits
  · rw [if_pos (by simp)]
    rw [Nat.cast_zero, zero_mul] at hvalue
    refine doubleValue_doubleNearest negative h.canonical h.finite (h.nearest_eq Nat.one_pos ?_)
    rw [← hvalue, Nat.cast_zero, zero_div]
  · -- the decimal is neither taken for zero nor for infinity
    have hlarge := leadingExponent_pos hvalue hdigits
    have hsmall := leadingExponent_le hvalue hdigits hn
    rw [if_neg (by simp; omega), if_neg (by omega)]
    refine doubleValue_doubleNearest negative h.canonical h.finite
      (h.nearest_eq (scaleByPow10_pos digits Nat.one_pos exponent) ?_)
    rw [scaleByPow10_div, Nat.cast_one, div_one, hvalue]

end

namespace Json

/-! ## Reading digits -/

theorem digitsValue_toDigits (n : ℕ) : digitsValue (Nat.toDigits 10 n) = n := by
  have hnumber : digitsValue (Nat.toDigits 10 n) =
      Decimal.number ((Nat.toDigits 10 n).map Decimal.digitOf) := (List.foldl_map ..).symm
  rw [hnumber, Decimal.number_toDigits]

/-- A number other than zero does not begin with a zero. -/
theorem exists_toDigits {n : ℕ} (hn : 0 < n) :
    ∃ d ds, Nat.toDigits 10 n = d :: ds ∧ d ≠ '0' := by
  induction n using Nat.strong_induction_on with
  | _ n ih =>
      rw [Nat.toDigits_eq_if (by decide)]
      split
      · next hlt =>
          refine ⟨_, _, rfl, fun heq ↦ ?_⟩
          have hdigit := Decimal.digitOf_digitChar hlt
          rw [heq] at hdigit
          exact hn.ne hdigit
      · obtain ⟨d, ds, heq, hd⟩ := ih (n / 10) (by omega) (by omega)
        exact ⟨d, ds ++ [(n % 10).digitChar], by rw [heq, List.cons_append], hd⟩

theorem skipBlanks_cons {c : Char} (hc : c ≠ ' ' ∧ c ≠ '\n' ∧ c ≠ '\t' ∧ c ≠ '\r') (cs : List Char)
    (line column : ℕ) :
    Cursor.skipBlanks ⟨c :: cs, line, column⟩ = ⟨c :: cs, line, column⟩ := by
  simp [Cursor.skipBlanks, Cursor.skipBlanks.go, hc]

theorem ne_of_isDigit {c d : Char} (hc : c.isDigit = true) (hd : d.isDigit = false) : c ≠ d := by
  rintro rfl
  rw [hc] at hd
  cases hd

theorem value_digit (size depth : ℕ) {c : Char} (hc : c.isDigit = true) (cs : List Char)
    (line column : ℕ) :
    value size depth ⟨c :: cs, line, column⟩ =
      (number false ⟨c :: cs, line, column⟩).map fun r ↦ (.number r.1, r.2) := by
  have hne {d : Char} (hd : d.isDigit = false) : c ≠ d := ne_of_isDigit hc hd
  unfold value
  rw [skipBlanks_cons ⟨hne rfl, hne rfl, hne rfl, hne rfl⟩]
  dsimp only
  rw [if_neg (mt beq_iff_eq.mp (hne rfl)), if_neg (mt beq_iff_eq.mp (hne rfl)),
    if_neg (mt beq_iff_eq.mp (hne rfl)), if_neg (mt beq_iff_eq.mp (hne rfl)), if_pos hc]
  cases number false ⟨c :: cs, line, column⟩ <;> rfl

theorem value_minus (size depth : ℕ) (cs : List Char) (line column : ℕ) :
    value size depth ⟨'-' :: cs, line, column⟩ =
      (number true ⟨cs, line, column + 1⟩).map fun r ↦ (.number r.1, r.2) := by
  unfold value
  rw [skipBlanks_cons (by decide)]
  dsimp only
  rw [if_neg (by decide), if_neg (by decide), if_neg (by decide), if_pos (by decide)]
  have hpast : Cursor.past ⟨'-' :: cs, line, column⟩ '-' cs = ⟨cs, line, column + 1⟩ := rfl
  rw [hpast]
  cases number true ⟨cs, line, column + 1⟩ <;> rfl

theorem toList_negSucc (k : ℕ) :
    (toString (Int.negSucc k)).toList = '-' :: Nat.toDigits 10 (k + 1) := by
  have hsign : toString (Int.negSucc k) = "-" ++ Nat.repr (k + 1) := rfl
  rw [hsign, String.toList_append, Nat.toList_repr]
  rfl

section

variable {rest : List Char} (hrest : ∀ c ∈ rest.head?, c.isDigit = false)

include hrest

theorem digits_append {ds : List Char} (hds : ∀ c ∈ ds, c.isDigit = true) (line column : ℕ) :
    digits ⟨ds ++ rest, line, column⟩ = (ds, ⟨rest, line, column + ds.length⟩) := by
  have hnone : rest.takeWhile Char.isDigit = [] := by
    cases rest with
    | nil => rfl
    | cons c rest => rw [List.takeWhile_cons_of_neg]; simpa using hrest c rfl
  unfold digits
  dsimp only
  rw [List.takeWhile_append_of_pos hds, hnone, List.append_nil, List.drop_left]

theorem number_append (negative : Bool) (n line column : ℕ) :
    ∃ column', number negative ⟨Nat.toDigits 10 n ++ rest, line, column⟩ =
      afterWhole negative n ⟨rest, line, column'⟩ := by
  rcases Nat.eq_zero_or_pos n with rfl | hn
  · refine ⟨column + 1, ?_⟩
    cases rest with
    | nil => rfl
    | cons c rest =>
        have hc : c.isDigit = false := hrest c rfl
        simp only [number, Nat.toDigits_zero, List.cons_append, List.nil_append, hc]
        rfl
  · obtain ⟨d, ds, heq, hd⟩ := exists_toDigits hn
    have hdigit : d.isDigit = true := Decimal.isDigit_toDigits (heq ▸ List.mem_cons_self)
    have hdigits :=
      digits_append hrest (fun c hc ↦ Decimal.isDigit_toDigits (n := n) hc) line column
    have hvalue := digitsValue_toDigits n
    rw [heq] at hdigits hvalue ⊢
    rw [List.cons_append] at hdigits ⊢
    refine ⟨column + (d :: ds).length, ?_⟩
    unfold number
    split
    · next hnil => cases hnil
    · next hzero =>
        cases hzero
        exact absurd rfl hd
    · next hcons =>
        cases hcons
        rw [if_pos hdigit, hdigits]
        dsimp only
        rw [hvalue]

theorem value_append (size depth : ℕ) (n : ℤ) (line column : ℕ) : ∃ column',
    value size depth ⟨(toString n).toList ++ rest, line, column⟩ =
      (afterWhole (decide (n < 0)) n.natAbs ⟨rest, line, column'⟩).map fun r ↦
        (.number r.1, r.2) := by
  cases n with
  | ofNat k =>
      obtain ⟨column', hnumber⟩ := number_append hrest false k line column
      refine ⟨column', ?_⟩
      have htext : (toString (Int.ofNat k)).toList = Nat.toDigits 10 k := Nat.toList_repr
      obtain ⟨d, ds, heq⟩ := List.exists_cons_of_ne_nil (Nat.toDigits_ne_nil (b := 10) (n := k))
      have hd : d.isDigit = true := Decimal.isDigit_toDigits (heq ▸ List.mem_cons_self)
      rw [htext]
      rw [heq] at hnumber ⊢
      rw [List.cons_append] at hnumber ⊢
      rw [value_digit size depth hd, hnumber]
      rfl
  | negSucc k =>
      obtain ⟨column', hnumber⟩ := number_append hrest true (k + 1) line (column + 1)
      refine ⟨column', ?_⟩
      rw [toList_negSucc, List.cons_append, value_minus, hnumber,
        decide_eq_true (Int.negSucc_lt_zero k)]
      rfl

/-- A text that begins with the digits of an integer and ends with its fraction is a number. -/
theorem read_append (n : ℤ) {x : Number}
    (h : ∀ column, ∃ c : Cursor, c.rest = [] ∧
      afterWhole (decide (n < 0)) n.natAbs ⟨rest, 1, column⟩ = .ok (x, c)) :
    read (toString n ++ String.ofList rest) = .ok (.number x) := by
  obtain ⟨column, hvalue⟩ :=
    value_append hrest (toString n ++ String.ofList rest).toList.length 127 n 1 0
  obtain ⟨⟨rest', line, column'⟩, rfl, hwhole⟩ := h column
  rw [hwhole] at hvalue
  have htext : (toString n ++ String.ofList rest).toList = (toString n).toList ++ rest := by
    rw [String.toList_append, String.toList_ofList]
  unfold read
  dsimp only
  rw [htext] at hvalue ⊢
  rw [hvalue]
  rfl

end

/-- The integers that are held are kept where neither a fraction nor an exponent follows. -/
theorem afterWhole_integer {n : ℤ} (hlow : -2 ^ 63 ≤ n) (hhigh : n < 2 ^ 64) {rest : List Char}
    (hends : ∀ c ∈ rest.head?, c ≠ '.' ∧ c ≠ 'e' ∧ c ≠ 'E') (line column : ℕ) :
    afterWhole (decide (n < 0)) n.natAbs ⟨rest, line, column⟩ =
      .ok (.integer n, ⟨rest, line, column⟩) := by
  unfold afterWhole
  split
  · next heq => exact absurd rfl (hends '.' (List.head?_eq_some_iff.mpr ⟨_, heq⟩)).1
  · next heq => exact absurd rfl (hends 'e' (List.head?_eq_some_iff.mpr ⟨_, heq⟩)).2.1
  · next heq => exact absurd rfl (hends 'E' (List.head?_eq_some_iff.mpr ⟨_, heq⟩)).2.2
  · dsimp only [Nat.pow_eq]
    cases n with
    | ofNat k =>
        have hsign : ¬Int.ofNat k < 0 := Int.not_lt.mpr (Int.natCast_nonneg k)
        rw [decide_eq_false hsign, if_neg (by decide)]
        exact if_pos (Int.ofNat_lt.mp hhigh)
    | negSucc k =>
        rw [decide_eq_true (Int.negSucc_lt_zero k), if_pos rfl]
        exact if_neg (by simp; omega)

theorem read_toString {n : ℤ} (hlow : -2 ^ 63 ≤ n) (hhigh : n < 2 ^ 64) :
    read (toString n) = .ok (.number (.integer n)) := by
  have hread := @read_append [] nofun n (.integer n)
  rw [String.ofList_nil, String.append_empty] at hread
  exact hread fun column ↦
    ⟨⟨[], 1, column⟩, rfl, afterWhole_integer hlow hhigh (by simp) 1 column⟩

theorem read_fraction {n : ℤ} {m : ℕ} {q : ℤ} (h : Whole n.natAbs m q) (hn : n.natAbs ≤ 2 ^ 53) :
    ∃ x, read (toString n ++ ".0") = .ok (.number (.double x)) ∧
      doubleValue x = .finite (decide (n < 0)) m q := by
  have htenth : ((n.natAbs * 10 : ℕ) : ℚ) * 10 ^ (-1 : ℤ) = n.natAbs := by
    rw [Nat.cast_mul, Nat.cast_ofNat, zpow_neg_one, mul_inv_cancel_right₀ (by norm_num)]
  obtain ⟨hvalue, hfinite⟩ := doubleValue_decimalToDouble htenth (decide (n < 0)) h hn
  refine ⟨_, @read_append ['.', '0'] (by simp) n _ fun column ↦
    ⟨⟨[], 1, column + 2⟩, rfl, ?_⟩, hvalue⟩
  have hwhole : afterWhole (decide (n < 0)) n.natAbs ⟨['.', '0'], 1, column⟩ =
      double (decide (n < 0)) (n.natAbs * 10) (-1) ⟨[], 1, column + 2⟩ := rfl
  rw [hwhole, double, if_pos hfinite]

/-! ## Reading members -/

/-- The characters of a string that stand for themselves are taken one by one. -/
theorem stringBody_append {cs : List Char}
    (hcs : ∀ c ∈ cs, c ≠ '"' ∧ c ≠ '\\' ∧ 32 ≤ c.toNat) {fuel : ℕ} (hfuel : cs.length < fuel)
    (acc : List Char) (rest : List Char) (line column : ℕ) :
    ∃ column', stringBody fuel acc ⟨cs ++ '"' :: rest, line, column⟩ =
      .ok (String.ofList (acc.reverse ++ cs), ⟨rest, line, column'⟩) := by
  induction cs generalizing fuel acc column with
  | nil =>
      obtain ⟨fuel, rfl⟩ := Nat.exists_eq_succ_of_ne_zero (Nat.ne_of_gt hfuel)
      refine ⟨column + 1, ?_⟩
      rw [List.append_nil]
      rfl
  | cons c cs ih =>
      obtain ⟨fuel, rfl⟩ := Nat.exists_eq_succ_of_ne_zero (Nat.ne_of_gt (Nat.zero_lt_of_lt hfuel))
      obtain ⟨hquote, hslash, hcontrol⟩ := hcs c List.mem_cons_self
      have hline : c ≠ '\n' := by
        rintro rfl
        revert hcontrol
        decide
      obtain ⟨column', hmore⟩ := ih (fun d hd ↦ hcs d (List.mem_cons_of_mem c hd))
        (Nat.lt_of_succ_lt_succ hfuel) (c :: acc) (column + c.utf8Size)
      refine ⟨column', ?_⟩
      rw [List.cons_append, stringBody]
      dsimp only
      rw [if_neg (mt beq_iff_eq.mp hquote), if_neg (mt beq_iff_eq.mp hslash),
        if_neg (Nat.not_lt.mpr hcontrol), Cursor.past, if_neg (mt beq_iff_eq.mp hline), hmore,
        List.reverse_cons, List.append_assoc]
      rfl

section

variable {key : String} (hkey : ∀ c ∈ key.toList, c ≠ '"' ∧ c ≠ '\\' ∧ 32 ≤ c.toNat) {n : ℤ}
  (hlow : -2 ^ 63 ≤ n) (hhigh : n < 2 ^ 64)

include hkey hlow hhigh

theorem entry_integer {size : ℕ} (hsize : key.length < size + 1) (depth line column : ℕ)
    (rest : List Char) : ∃ column',
      entry size (value size depth)
          ⟨'"' :: (key.toList ++ '"' :: ':' :: ((toString n).toList ++ '}' :: rest)),
            line, column⟩ =
        .ok ((key, .number (.integer n)), ⟨'}' :: rest, line, column'⟩) := by
  obtain ⟨column₁, hbody⟩ := stringBody_append hkey hsize []
    (':' :: ((toString n).toList ++ '}' :: rest)) line (column + 1)
  obtain ⟨column₂, hvalue⟩ :=
    @value_append ('}' :: rest) (by simp) size depth n line (column₁ + 1)
  refine ⟨column₂, ?_⟩
  rw [afterWhole_integer hlow hhigh (by simp)] at hvalue
  have hquote (cs : List Char) (column : ℕ) :
      Cursor.past ⟨'"' :: cs, line, column⟩ '"' cs = ⟨cs, line, column + 1⟩ := rfl
  have hcolon (cs : List Char) (column : ℕ) :
      Cursor.past ⟨':' :: cs, line, column⟩ ':' cs = ⟨cs, line, column + 1⟩ := rfl
  simp only [entry, hquote, hbody, bind, Except.bind]
  rw [skipBlanks_cons (by decide)]
  simp only [hcolon, hvalue]
  rw [List.reverse_nil, List.nil_append, String.ofList_toList]
  rfl

/-- An integer as the only member of an object. -/
theorem read_member :
    read ("\x7b\"" ++ key ++ "\":" ++ toString n ++ "\x7d") =
      .ok (.object [(key, .number (.integer n))]) := by
  let text : List Char := '"' :: (key.toList ++ '"' :: ':' :: ((toString n).toList ++ ['}']))
  have htext : ("\x7b\"" ++ key ++ "\":" ++ toString n ++ "\x7d").toList = '{' :: text := by
    simp [text]
  have hsize : key.length < text.length + 1 := by
    simp only [text, List.length_cons, List.length_append, String.length_toList]
    omega
  obtain ⟨column, hentry⟩ :=
    entry_integer hkey hlow hhigh (Nat.lt_succ_of_lt hsize) 126 1 1 []
  have hbrace : Cursor.past ⟨'{' :: text, 1, 0⟩ '{' text = ⟨text, 1, 1⟩ := rfl
  have hentries : entries (text.length + 1) (value (text.length + 1) 126) (text.length + 2) true []
      ⟨text, 1, 1⟩ = .ok ([(key, .number (.integer n))], ⟨[], 1, column + 1⟩) := by
    rw [entries, skipBlanks_cons (by decide)]
    simp only [hentry, bind, Except.bind, if_true]
    rfl
  have hvalue : value (text.length + 1) 127 ⟨'{' :: text, 1, 0⟩ =
      .ok (.object [(key, .number (.integer n))], ⟨[], 1, column + 1⟩) := by
    rw [value, skipBlanks_cons (by decide)]
    simp only [hbrace, hentries, bind, Except.bind]
    rfl
  simp only [read, htext, List.length_cons, hvalue, bind, Except.bind]
  rfl

end

end Json

namespace NumberFormat

/-- Up to `2 ^ 53` an integer is formatted as the double that is this integer, and every integer is
formatted by its digits, a percentage by those of a hundred times as much.  So the digits of an
integer alone and those with an empty fraction are formatted alike. -/
theorem formatValue_integer :
    (∀ (f : NumberFormat) (n : ℤ), |n| ≤ 2 ^ 53 →
      (∃ m q, doubleValue (Number.integer n).toDouble = .finite (decide (n < 0)) m q ∧
        (m : ℚ) * 2 ^ q = |n|) ∧
      f.formatValue (.number (.integer n)) = f.formatDouble (Number.integer n).toDouble) ∧
    (∀ n : ℤ,
      plain.formatValue (.number (.integer n)) = toString n ∧
      currency.formatValue (.number (.integer n)) = "$" ++ toString n ∧
      percent.formatValue (.number (.integer n)) = toString (100 * n) ++ "%") ∧
    (∀ n : ℤ, -2 ^ 63 ≤ n → n < 2 ^ 64 →
      Json.read (toString n) = .ok (.number (.integer n))) ∧
    ∀ n : ℤ, |n| ≤ 2 ^ 53 → ∃ x, Json.read (toString n ++ ".0") = .ok (.number (.double x)) ∧
      ∀ f : NumberFormat, f.formatValue (.number (.double x)) =
        f.formatValue (.number (.integer n)) := by
  have hsize {n : ℤ} (hn : |n| ≤ 2 ^ 53) : n.natAbs ≤ 2 ^ 53 := by
    rw [Int.abs_eq_natAbs] at hn
    exact_mod_cast hn
  refine ⟨fun f n hn ↦ ?_, fun n ↦ ⟨?_, ?_, ?_⟩, fun n ↦ Json.read_toString, fun n hn ↦ ?_⟩
  · obtain ⟨m, q, h⟩ := exists_whole (hsize hn)
    have hnearest : double.nearest n.natAbs 1 = double.word m q :=
      h.nearest_eq Nat.one_pos (by rw [Nat.cast_one, div_one])
    have hvalue := (doubleValue_doubleNearest (decide (n < 0)) h.canonical h.finite hnearest).1
    rw [← toDouble_integer] at hvalue
    refine ⟨⟨m, q, hvalue, ?_⟩, (formatDouble_whole f h hvalue).symm⟩
    rw [h.value, Int.abs_eq_natAbs]
    rfl
  · exact formatInteger_eq plain n
  · exact formatInteger_eq currency n
  · exact formatInteger_eq percent n
  · obtain ⟨m, q, h⟩ := exists_whole (hsize hn)
    obtain ⟨x, hread, hvalue⟩ := Json.read_fraction h (hsize hn)
    exact ⟨x, hread, fun f ↦ formatDouble_whole f h hvalue⟩

/-- The last double for an integer, the last integer that is held, and a dozen with a fraction. -/
theorem formatValue_integer_limits :
    |(-9007199254740992 : ℤ)| ≤ 2 ^ 53 ∧
    percent.formatDouble (Number.integer (-9007199254740992)).toDouble = "-900719925474099200%" ∧
    Json.read "18446744073709551615" = .ok (.number (.integer 18446744073709551615)) ∧
    ∃ x, Json.read "12.0" = .ok (.number (.double x)) ∧
      currency.formatValue (.number (.double x)) = "$12" := by
  obtain ⟨hagree, hdigits, hread, hfraction⟩ := formatValue_integer
  have hlast : |(-9007199254740992 : ℤ)| ≤ 2 ^ 53 := by decide
  have hpercent := (hagree percent _ hlast).2
  rw [(hdigits _).2.2] at hpercent
  obtain ⟨x, hdozen, hformat⟩ := hfraction 12 (by decide)
  have hdollars := hformat currency
  rw [(hdigits 12).2.1] at hdollars
  exact ⟨hlast, hpercent.symm, hread 18446744073709551615 (by decide) (by decide), x, hdozen,
    hdollars⟩

end NumberFormat

end PagedReport
