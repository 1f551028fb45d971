import PagedReport.Proofs.Data.IntegerTexts
import PagedReport.Proofs.Number.LongIntegers
import PagedReport.Proofs.Placeholder.References

/-!
# Integers as literals

The same digits are read by two readers.  In the data an integer is kept below `2 ^ 64`, as a
literal of an action only below `2 ^ 63`, and beyond it is a double.  What an action prints shows
which it was.
-/

namespace PagedReport

namespace Action

/-! ## Digits that are read -/

theorem toList_toString (n : ℤ) : (toString n).toList = printInteger n := by
  cases n with
  | ofNat n => exact Nat.toList_repr
  | negSucc n => exact Json.toList_negSucc n

/-- Digits that are too many for a limit fail where they pass it. -/
theorem readDigits_past {ds : List Char} (hds : ∀ d ∈ ds, d.isDigit = true) {limit n : ℕ}
    (past : IntegerError) (hn : n ≤ limit) (h : limit < Nat.ofDigitChars 10 ds n) :
    readDigits 10 limit past n ds = .error past := by
  induction ds generalizing n with
  | nil => exact absurd h (Nat.not_lt.mpr hn)
  | cons d ds ih =>
      have hnext : n * 10 + (d.toNat - 48) = 10 * n + (d.toNat - 48) := by omega
      rw [readDigits, digitValue_of_isDigit (hds d List.mem_cons_self)]
      simp only [hnext]
      split
      · rfl
      · next hlimit => exact ih (fun c hc ↦ hds c (List.mem_cons_of_mem d hc)) (by omega) h

theorem readInt64_toDigits {n : ℕ} (hlow : 2 ^ 63 ≤ n) :
    readInt64 (Nat.toDigits 10 n) = .error .tooLarge := by
  have hvalue : Nat.ofDigitChars 10 (Nat.toDigits 10 n) 0 = n := Nat.ofDigitChars_ten_toDigits
  have hlimit : Nat.pow 2 63 - 1 < Nat.ofDigitChars 10 (Nat.toDigits 10 n) 0 := by
    rw [hvalue, Nat.pow_eq]
    omega
  rw [readInt64, readInteger_digits (isDigits_toDigits n),
    readDigits_past (isDigits_toDigits n).2 .tooLarge (Nat.zero_le _) hlimit]
  rfl

theorem toLower_of_isDigit {c : Char} (hc : c.isDigit = true) : c.toLower = c := by
  have hcapital : ¬(c.val ≥ 'A'.val ∧ c.val ≤ 'Z'.val) := by
    simp [Char.isDigit, UInt32.le_iff_toNat_le] at hc ⊢
    omega
  exact dif_neg hcapital

/-- Digits alone are a decimal number without places. -/
theorem readDouble_toDigits (n : ℕ) :
    readDouble (Nat.toDigits 10 n) = some (decimalToDouble false n 0) := by
  obtain ⟨hne, hdigits⟩ := isDigits_toDigits n
  have hvalue := Json.digitsValue_toDigits n
  generalize Nat.toDigits 10 n = ds at hne hdigits hvalue ⊢
  obtain ⟨d, ds, rfl⟩ := List.exists_cons_of_ne_nil hne
  have hd : d.isDigit = true := hdigits d List.mem_cons_self
  have hsign : splitSign (d :: ds) = (false, d :: ds) := by
    unfold splitSign
    split
    · next heq => exact absurd (List.cons.inj heq).1 (Json.ne_of_isDigit hd rfl)
    · next heq => exact absurd (List.cons.inj heq).1 (Json.ne_of_isDigit hd rfl)
    · rfl
  -- a digit is no letter, so the digits are none of the names
  have hname (name : String) {c : Char} (hhead : name.toList.head? = some c)
      (hc : c.isDigit = false) : String.ofList ((d :: ds).map Char.toLower) ≠ name := by
    rintro rfl
    rw [String.toList_ofList, List.map_cons, List.head?_cons, toLower_of_isDigit hd] at hhead
    obtain rfl := Option.some.inj hhead
    rw [hd] at hc
    cases hc
  have hspan : (d :: ds).span Char.isDigit = (d :: ds, []) := by
    rw [List.span_eq_takeWhile_dropWhile, List.takeWhile_eq_self_iff.mpr hdigits,
      List.dropWhile_eq_nil_iff.mpr hdigits]
  have hunsigned : readUnsigned false (d :: ds) = some (decimalToDouble false n 0) := by
    rw [readUnsigned, hspan]
    dsimp only
    rw [List.append_nil, hvalue]
    rfl
  simp only [readDouble, hsign, hunsigned, beq_iff_eq, Bool.or_eq_true, hname "nan" rfl rfl,
    hname "inf" rfl rfl, hname "infinity" rfl rfl, or_self, if_false]

/-- A decimal number without places is the double nearest to it. -/
theorem decimalToDouble_integer {n : ℕ} (hpos : 0 < n) (hhigh : n < 2 ^ 64) :
    decimalToDouble false n 0 = (Number.integer n).toDouble := by
  have hlength : decimalLength n - 1 < 20 := by
    have hpow : 10 ^ (decimalLength n - 1) < 10 ^ 20 :=
      (pow_decimalLength_le hpos).trans_lt (hhigh.trans (by decide))
    exact (Nat.pow_lt_pow_iff_right (by decide)).mp hpow
  have hscale : scaleByPow10 n 1 0 = (n, 1) := congrArg (·, 1) (Nat.mul_one n)
  unfold decimalToDouble
  dsimp only
  rw [if_neg (by simp; omega), if_neg (by omega), hscale]
  rfl

/-- Beyond signed words a literal is no integer. -/
theorem literalValue_long {n : ℕ} (hlow : 2 ^ 63 ≤ n) (hhigh : n < 2 ^ 64) :
    literalValue (printInteger n) = .number (.double (Number.integer n).toDouble) := by
  obtain ⟨-, -, -, hfinite, -⟩ := exists_thousands hlow hhigh
  have hdigits : printInteger n = Nat.toDigits 10 n := rfl
  rw [literalValue, hdigits, readInt64_toDigits hlow, readDouble_toDigits,
    decimalToDouble_integer (by omega) hhigh]
  exact if_pos hfinite

/-! ## Actions that are numbers -/

/-- The characters of a name stand for themselves in a string of the data. -/
theorem NameText.plain {cs : List Char} (h : NameText cs) :
    ∀ c ∈ cs, c ≠ '"' ∧ c ≠ '\\' ∧ 32 ≤ c.toNat := by
  have hclass {p : Char → Bool}
      (hp : ('"' :: '\\' :: (List.range 32).map Char.ofNat).any p = false) {c : Char}
      (hc : p c = true) : c ≠ '"' ∧ c ≠ '\\' ∧ 32 ≤ c.toNat := by
    have hnot {d : Char} (hd : d ∈ '"' :: '\\' :: (List.range 32).map Char.ofNat) : c ≠ d := by
      rintro rfl
      exact List.any_eq_false.mp hp c hd hc
    refine ⟨hnot (by simp), hnot (by simp), Nat.not_lt.mp fun hsmall ↦ hnot ?_ rfl⟩
    have hmem : c ∈ (List.range 32).map Char.ofNat :=
      List.mem_map.mpr ⟨c.toNat, List.mem_range.mpr hsmall, Char.ofNat_toNat c⟩
    exact List.mem_cons_of_mem _ (List.mem_cons_of_mem _ hmem)
  obtain ⟨hfirst, hmore⟩ := h
  intro c hc
  rcases List.mem_cons.mp hc with rfl | hc
  · exact hclass (p := fun c ↦ isAsciiLetter c || c == '_') (by decide) hfirst
  · exact hclass (by decide +kernel) (hmore c hc)

/-- A text piped into a helper. -/
def piped (cs before behind : List Char) (name : String) : List Char :=
  cs ++ before ++ '|' :: behind ++ name.toList

/-- The action has this value, whatever it may refer to. -/
def Denotes (action : String) (x : Number) : Prop :=
  ∃ p, read action = .ok p ∧ ∀ scope, evaluate scope p = .ok (.number x)

/-- Blanks inside the marks apart, a fragment that is only this action is replaced by the text. -/
def Resolves (helpers : Helpers) (data : Value) (action : List Char) (text : String) : Prop :=
  ∀ before behind : List Char, (∀ c ∈ before, isBlank c = true) →
    (∀ c ∈ behind, isBlank c = true) →
    tryResolve helpers data (Source.reference before action behind) = .ok text

/-- An action prints these digits, alone and piped into `number`, and an amount with these digits
piped into `currency`. -/
structure Prints (data : Value) (action : List Char) (digits : String) : Prop where
  alone : ∀ helpers, Resolves helpers data action digits
  number : ∀ (helpers : Helpers) (before behind : List Char), Gap before → Gap behind →
    helpers.get? "number" = some (Helper.formatted .plain) →
    Resolves helpers data (piped action before behind "number") digits
  currency : ∀ (helpers : Helpers) (before behind : List Char), Gap before → Gap behind →
    helpers.get? "currency" = some (Helper.formatted .currency) →
    Resolves helpers data (piped action before behind "currency") ("$" ++ digits)

theorem evaluate_operand {scope : Scope} {o : Operand} {v : Value} (h : o.eval scope = .ok v) :
    evaluate scope [.operand o] = .ok v := by
  simp [evaluate, evalStages, Command.eval, h, bind, Except.bind, pure, Except.pure]

section

variable {cs : List Char} {o : Operand} (htext : OperandText cs o)
  (hcall : ¬FreeName (String.ofList cs)) {x : Number}

include htext hcall

theorem pipelineText_operand : PipelineText cs [.operand o] := .single (.operand htext hcall)

theorem denotes_of_eval (heval : ∀ scope, o.eval scope = .ok (.number x)) :
    Denotes (String.ofList cs) x := by
  have hpipeline := pipelineText_operand htext hcall
  refine ⟨[.operand o], ?_, fun scope ↦ evaluate_operand (heval scope)⟩
  rwa [read_eq_ok, String.toList_ofList, hpipeline.trimBoth]

section

variable {helpers : Helpers} {data : Value}
  (heval : o.eval ⟨data, data, helpers⟩ = .ok (.number x))

include heval

theorem resolves_operand : Resolves helpers data cs x.text := by
  intro before behind hbefore hbehind
  exact Source.tryResolve_between (pipelineText_operand htext hcall) hbefore hbehind
    (evaluate_operand heval) (by simp)

theorem resolves_piped {name : String} (hname : FreeName name) {f : NumberFormat}
    (hhelper : helpers.get? name = some (Helper.formatted f)) {gap gap' : List Char}
    (hgap : Gap gap) (hgap' : Gap gap') :
    Resolves helpers data (piped cs gap gap' name) (f.formatValue (.number x)) := by
  intro before behind hbefore hbehind
  have hlast : PipelineText name.toList [.call name []] := by
    have hcommand := CommandText.call hname .nil
    rw [List.append_nil] at hcommand
    exact .single hcommand
  have hpipeline : PipelineText (piped cs gap gap' name) [.operand o, .call name []] :=
    .cons (.operand htext hcall) hgap hgap' hlast
  have hvalue : evaluate ⟨data, data, helpers⟩ [.operand o, .call name []] =
      .ok (.string (f.formatValue (.number x))) := by
    simp [evaluate, evalStages, Command.eval, heval, evalOperands, hhelper, Helper.formatted,
      Helper.unary, bind, Except.bind, pure, Except.pure]
  exact Source.tryResolve_between hpipeline hbefore hbehind hvalue (by simp)

end

/-- It is enough that a number is printed and formatted like an integer. -/
theorem prints_of_eval {data : Value}
    (heval : ∀ helpers, o.eval ⟨data, data, helpers⟩ = .ok (.number x)) {k : ℤ}
    (hdigits : x.text = toString k)
    (hformat : ∀ f : NumberFormat, f.formatValue (.number x) = f.formatInteger k) :
    Prints data cs (toString k) := by
  have hplain : NumberFormat.plain.formatValue (.number x) = toString k :=
    (hformat .plain).trans (NumberFormat.formatInteger_eq .plain k)
  have hcurrency : NumberFormat.currency.formatValue (.number x) = "$" ++ toString k :=
    (hformat .currency).trans (NumberFormat.formatInteger_eq .currency k)
  constructor
  · intro helpers
    rw [← hdigits]
    exact resolves_operand htext hcall (heval helpers)
  · intro helpers before behind hbefore hbehind hhelper
    rw [← hplain]
    exact resolves_piped htext hcall (heval helpers) (by decide) hhelper hbefore hbehind
  · intro helpers before behind hbefore hbehind hhelper
    rw [← hcurrency]
    exact resolves_piped htext hcall (heval helpers) (by decide) hhelper hbefore hbehind

end

/-! ## Integers in the data and in actions -/

theorem prints_field {key : String} (hkey : NameText key.toList) {n : ℤ} {data : Value}
    (hmember : data.member? key = some (.number (.integer n))) :
    Prints data (dotted [key]) (toString n) := by
  have htext : OperandText (dotted [key]) (.field [key]) :=
    .field (List.cons_ne_nil _ _) (by simpa using hkey)
  have hmark : ¬FreeName (String.ofList (dotted [key])) :=
    not_freeName_of_mark ⟨'.', _, .inl (by decide), rfl⟩
  have hfollow : Source.follow data [key] = some (.number (.integer n)) := by
    rw [Source.follow_cons, hmember]
    rfl
  exact prints_of_eval htext hmark (fun _ ↦ Source.select_of_follow hfollow) rfl fun _ ↦ rfl

section

variable {n : ℤ}

theorem operandText_literal {x : Number} (hvalue : literalValue (printInteger n) = .number x) :
    OperandText (toString n).toList (.literal (.number x)) := by
  have htext := OperandText.number (numberText_printInteger n)
  rwa [hvalue, ← toList_toString] at htext

theorem not_freeName_toString (n : ℤ) : ¬FreeName (String.ofList (toString n).toList) := by
  rw [toList_toString]
  exact not_freeName_of_mark (numberText_printInteger n).mark

theorem denotes_literal {x : Number} (hvalue : literalValue (printInteger n) = .number x) :
    Denotes (toString n) x := by
  have hdenotes :=
    denotes_of_eval (operandText_literal hvalue) (not_freeName_toString n) fun _ ↦ rfl
  rwa [String.ofList_toList] at hdenotes

theorem prints_literal {x : Number} (hvalue : literalValue (printInteger n) = .number x) {k : ℤ}
    (hdigits : x.text = toString k)
    (hformat : ∀ f : NumberFormat, f.formatValue (.number x) = f.formatInteger k) (data : Value) :
    Prints data (toString n).toList (toString k) :=
  prints_of_eval (operandText_literal hvalue) (not_freeName_toString n) (fun _ ↦ rfl) hdigits
    hformat

theorem literalValue_signed (hlow : -2 ^ 63 ≤ n) (hhigh : n < 2 ^ 63) :
    literalValue (printInteger n) = .number (.integer n) := by
  rw [literalValue, readInt64_printInteger hlow hhigh]

theorem exists_prints_long (hlow : 2 ^ 63 ≤ n) (hhigh : n < 2 ^ 64) :
    Denotes (toString n) (.double (Number.integer n).toDouble) ∧
      ∃ N : ℕ, 1000 ∣ N ∧ (Number.integer N).toDouble = (Number.integer n).toDouble ∧
        ∀ data, Prints data (toString n).toList (toString N) := by
  obtain ⟨n, rfl⟩ := Int.eq_ofNat_of_zero_le (by omega : 0 ≤ n)
  have hlow' : 2 ^ 63 ≤ n := by exact_mod_cast hlow
  have hhigh' : n < 2 ^ 64 := by exact_mod_cast hhigh
  have hvalue := literalValue_long hlow' hhigh'
  obtain ⟨N, hdvd, hsame, -, hdigits, hformat⟩ := exists_thousands hlow' hhigh'
  exact ⟨denotes_literal hvalue, N, hdvd, hsame, @prints_literal n _ hvalue N hdigits hformat⟩

end

/-- An integer that data hold is read as it is, and what refers to it prints its digits and is
formatted with them.  The same digits as an action are this integer only below `2 ^ 63`; from there
on they are a double, printed and formatted with the digits of a multiple of a thousand. -/
theorem integer_literal {n : ℤ} (hlow : -2 ^ 63 ≤ n) (hhigh : n < 2 ^ 64) {key : String}
    (hkey : NameText key.toList) :
    Json.read (toString n) = .ok (.number (.integer n)) ∧
    Json.read ("\x7b\"" ++ key ++ "\":" ++ toString n ++ "\x7d") =
      .ok (.object [(key, .number (.integer n))]) ∧
    (∀ data : Value, data.member? key = some (.number (.integer n)) →
      Prints data (dotted [key]) (toString n)) ∧
    (n < 2 ^ 63 → Denotes (toString n) (.integer n) ∧
      ∀ data, Prints data (toString n).toList (toString n)) ∧
    (2 ^ 63 ≤ n → Denotes (toString n) (.double (Number.integer n).toDouble) ∧
      ∃ N : ℕ, 1000 ∣ N ∧ (Number.integer N).toDouble = (Number.integer n).toDouble ∧
        ∀ data, Prints data (toString n).toList (toString N)) := by
  refine ⟨Json.read_toString hlow hhigh, Json.read_member hkey.plain hlow hhigh,
    fun data ↦ prints_field hkey, fun hsigned ↦ ?_, fun hlong ↦ exists_prints_long hlong hhigh⟩
  have hvalue := literalValue_signed hlow hsigned
  exact ⟨denotes_literal hvalue, prints_literal hvalue rfl fun _ ↦ rfl⟩

/-- The least and the greatest integer that data hold. -/
theorem integer_literal_limits :
    NameText "n".toList ∧
    tryResolve .standard .null "\x7b\x7b -9223372036854775808 | currency \x7d\x7d" =
      .ok "$-9223372036854775808" ∧
    ∃ data, Json.read "\x7b\"n\":18446744073709551615\x7d" = .ok data ∧
      tryResolve .standard data "\x7b\x7b.n|number\x7d\x7d" = .ok "18446744073709551615" ∧
      ∃ N : ℕ, 1000 ∣ N ∧
        tryResolve .standard data "\x7b\x7b18446744073709551615\x7d\x7d" = .ok (toString N) := by
  have hkey : NameText "n".toList := by decide
  have hnone : ∀ c ∈ [], isBlank c = true := by simp
  have hspace : ∀ c ∈ [' '], isBlank c = true := List.forall_mem_singleton.mpr (by decide)
  have hgap : Gap [' '] := by simp [Gap, isGap]
  have hnogap : Gap [] := by simp [Gap]
  obtain ⟨-, -, -, hleast, -⟩ :=
    @integer_literal (-9223372036854775808) (by decide) (by decide) "n" hkey
  obtain ⟨-, hread, hfield, -, hgreatest⟩ :=
    @integer_literal 18446744073709551615 (by decide) (by decide) "n" hkey
  obtain ⟨-, hprints⟩ := hleast (by decide)
  obtain ⟨-, N, hdvd, -, hlong⟩ := hgreatest (by decide)
  refine ⟨hkey, ?_, _, hread, ?_, N, hdvd, ?_⟩
  · exact (hprints .null).currency .standard [' '] [' '] hgap hgap rfl [' '] [' '] hspace hspace
  · exact (hfield _ rfl).number .standard [] [] hnogap hnogap rfl [] [] hnone hnone
  · exact (hlong _).alone .standard [] [] hnone hnone

/-- The greatest integer that data hold is printed with its own digits from there, but not as an
action. -/
theorem not_integer_literal :
    ∃ data, Json.read "\x7b\"n\":18446744073709551615\x7d" = .ok data ∧
      tryResolve .standard data "\x7b\x7b.n\x7d\x7d" = .ok "18446744073709551615" ∧
      tryResolve .standard data "\x7b\x7b18446744073709551615\x7d\x7d" ≠
        .ok "18446744073709551615" := by
  have hkey : NameText "n".toList := by decide
  have hnone : ∀ c ∈ [], isBlank c = true := by simp
  let data : Value := .object [("n", .number (.integer 18446744073709551615))]
  have hread := @Json.read_member "n" hkey.plain 18446744073709551615 (by decide) (by decide)
  have hfield := @prints_field "n" hkey 18446744073709551615 data rfl
  refine ⟨data, hread, hfield.alone .standard [] [] hnone hnone, fun hsame ↦ ?_⟩
  obtain ⟨-, N, hdvd, -, hlong⟩ :=
    @exists_prints_long 18446744073709551615 (by decide) (by decide)
  have hprinted := (hlong data).alone .standard [] [] hnone hnone
  have hdigits : toString N = toString 18446744073709551615 :=
    Except.ok.inj (hprinted.symm.trans hsame)
  have hvalue (n : ℕ) : digitsValue (toString n).toList = n := by
    have htext : (toString n).toList = Nat.toDigits 10 n := Nat.toList_repr
    rw [htext, Json.digitsValue_toDigits]
  have hsize := congrArg (fun s : String ↦ digitsValue s.toList) hdigits
  rw [hvalue, hvalue] at hsize
  omega

end Action

end PagedReport
