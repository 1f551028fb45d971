import PagedReport.Proofs.Placeholder.Recognition

/-!
# Actions are read exactly

A text is read as a pipeline if and only if the grammar derives that pipeline from it without the
blanks at its ends, so no text has two readings.  Printed pipelines are read back.
-/

namespace PagedReport

namespace Action

/-! ## Derived texts have no blanks at their ends -/

def Tight (cs : List Char) : Prop := ∀ c ∈ cs.getLast?, isBlank c = false

theorem tight_of_forall {cs : List Char} (h : ∀ c ∈ cs, isBlank c = false) : Tight cs :=
  fun c hc ↦ h c (List.mem_of_getLast? hc)

theorem tight_concat {c : Char} (hc : isBlank c = false) (cs : List Char) : Tight (cs ++ [c]) := by
  intro d hd
  obtain rfl : c = d := by simpa using hd
  exact hc

theorem Tight.append {ds : List Char} (h : Tight ds) (hne : ds ≠ []) (cs : List Char) :
    Tight (cs ++ ds) := by
  intro c hc
  have hlast : ds.getLast?.isSome := by simpa using hne
  rw [List.getLast?_append, Option.or_of_isSome hlast] at hc
  exact h c hc

theorem Solid.not_blank {p : Char → Bool} (hp : Solid p) {c : Char} (hc : p c = true) :
    isBlank c = false := by
  by_contra hblank
  rw [hp.1 c (by simpa using hblank)] at hc
  cases hc

theorem NameText.not_blank {cs : List Char} (h : NameText cs) : ∀ c ∈ cs, isBlank c = false := by
  obtain ⟨hfirst, hmore⟩ := h
  intro c hc
  rcases List.mem_cons.mp hc with rfl | hc
  · have hclass : Solid fun c ↦ isAsciiLetter c || c == '_' := solid_of_any (by decide)
    exact hclass.not_blank hfirst
  · exact solid_continuesName.not_blank (hmore c hc)

theorem dotted_not_blank {path : List String} (h : ∀ key ∈ path, NameText key.toList) :
    ∀ c ∈ dotted path, isBlank c = false := by
  intro c hc
  obtain ⟨key, hkey, hc⟩ := List.mem_flatMap.mp hc
  rcases List.mem_cons.mp hc with rfl | hc
  · decide
  · exact (h key hkey).not_blank c hc

theorem IsDigits.tight {ds : List Char} (h : IsDigits ds) (cs : List Char) : Tight (cs ++ ds) :=
  (tight_of_forall fun c hc ↦ solid_isDigit.not_blank (h.2 c hc)).append h.1 cs

theorem NumberText.tight {cs : List Char} (h : NumberText cs) : Tight cs := by
  obtain @⟨sign, whole, frac, exp, -, hwhole, hfrac, hexp⟩ := h
  cases hexp with
  | @some mark esign ds _ _ hds =>
      rw [← List.append_assoc]
      exact hds.tight _
  | none =>
      rw [List.append_nil]
      cases hfrac with
      | none =>
          rw [List.append_nil]
          exact hwhole.tight _
      | @some ds hds =>
          rw [List.append_cons]
          exact hds.tight _

theorem OperandText.tight {cs : List Char} {o : Operand} (h : OperandText cs o) : Tight cs := by
  cases h with
  | quoted => exact tight_concat (by decide) _
  | raw => exact tight_concat (by decide) _
  | number h => exact h.tight
  | root h =>
      apply tight_of_forall
      intro c hc
      rcases List.mem_cons.mp hc with rfl | hc
      · decide
      · exact dotted_not_blank h c hc
  | field _ h => exact tight_of_forall (dotted_not_blank h)
  | dot => exact tight_concat (by decide) []
  | nested => exact tight_concat (by decide) _
  | keyword h => exact tight_of_forall (nameText_of_keyword h).not_blank
  | bare h => exact tight_of_forall h.1.not_blank

theorem Starts.ne_nil {cs : List Char} (h : Starts cs) : cs ≠ [] := by
  rintro rfl
  obtain ⟨c, hc, -⟩ := h
  cases hc

theorem ArgumentsText.tight : ∀ {cs : List Char} {os : List Operand}, ArgumentsText cs os → Tight cs
  | _, _, .nil => nofun
  | _, _, @ArgumentsText.cons gap cs rest _ _ _ _ h hrest => by
      by_cases hnil : rest = []
      · rw [hnil, List.append_nil]
        exact h.tight.append h.starts.ne_nil gap
      · exact hrest.tight.append hnil _

theorem CommandText.tight {cs : List Char} {c : Command} (h : CommandText cs c) : Tight cs := by
  cases h with
  | @call name cs os hname h =>
      by_cases hnil : cs = []
      · rw [hnil, List.append_nil]
        exact tight_of_forall hname.1.not_blank
      · exact h.tight.append hnil _
  | operand h _ => exact h.tight

theorem PipelineText.tight : ∀ {cs : List Char} {p : Pipeline}, PipelineText cs p → Tight cs
  | _, _, .single h => h.tight
  | _, _, .cons _ _ _ hrest => hrest.tight.append hrest.starts.ne_nil _

theorem PipelineText.trimBoth {cs : List Char} {p : Pipeline} (h : PipelineText cs p) :
    trimBoth cs = cs := by
  refine trimBoth_eq_self (fun c hc ↦ ?_) h.tight
  obtain ⟨d, hd, hblank, -⟩ := h.starts
  obtain rfl : c = d := Option.mem_unique hc hd
  exact hblank

/-! ## Printing -/

def escaped (c : Char) : List Char :=
  match escapes.find? (·.2 == c) with
  | some (e, _) => ['\\', e]
  | none => [c]

def printInteger : Int → List Char
  | .ofNat n => Nat.toDigits 10 n
  | .negSucc n => '-' :: Nat.toDigits 10 (n + 1)

/-- Lists, objects and doubles have no printed form. -/
def printLiteral : Value → List Char
  | .null => "nil".toList
  | .bool true => "true".toList
  | .bool false => "false".toList
  | .string s => '"' :: s.toList.flatMap escaped ++ ['"']
  | .number (.integer n) => printInteger n
  | _ => []

def LiteralWellFormed : Value → Prop
  | .null | .bool _ | .string _ => True
  | .number (.integer n) => -(Nat.pow 2 63 : Int) ≤ n ∧ n < (Nat.pow 2 63 : Int)
  | _ => False

mutual

def printOperand : Operand → List Char
  | .literal v => printLiteral v
  | .field [] => ['.']
  | .field (key :: path) => dotted (key :: path)
  | .root path => '$' :: dotted path
  | .nested p => '(' :: printPipeline p ++ [')']

def printArguments : List Operand → List Char
  | [] => []
  | o :: os => ' ' :: printOperand o ++ printArguments os

def printCommand : Command → List Char
  | .call name os => name.toList ++ printArguments os
  | .operand o => printOperand o

def printPipeline : List Command → List Char
  | [] => []
  | [c] => printCommand c
  | c :: d :: p => printCommand c ++ ' ' :: '|' :: ' ' :: printPipeline (d :: p)

end

mutual

def OperandWellFormed : Operand → Prop
  | .literal v => LiteralWellFormed v
  | .field path => ∀ key ∈ path, NameText key.toList
  | .root path => ∀ key ∈ path, NameText key.toList
  | .nested p => PipelineWellFormed p

def ArgumentsWellFormed : List Operand → Prop
  | [] => True
  | o :: os => OperandWellFormed o ∧ ArgumentsWellFormed os

def CommandWellFormed : Command → Prop
  | .call name os => FreeName name ∧ ArgumentsWellFormed os
  | .operand o => OperandWellFormed o

def PipelineWellFormed : List Command → Prop
  | [] => False
  | [c] => CommandWellFormed c
  | c :: d :: p => CommandWellFormed c ∧ PipelineWellFormed (d :: p)

end

/-! ## Printed literals -/

theorem quotedText_escaped (s : List Char) : QuotedText (s.flatMap escaped) s := by
  induction s with
  | nil => exact .nil
  | cons c s ih =>
      rw [List.flatMap_cons, escaped]
      split
      · next e d hfind =>
          have hmem := List.mem_of_find?_eq_some hfind
          obtain rfl : d = c := by simpa using List.find?_some hfind
          exact .escape hmem ih
      · next hfind =>
          rw [List.find?_eq_none] at hfind
          refine .plain ?_ ?_ ih
          · rintro rfl
            exact hfind ('"', '"') (by decide) rfl
          · rintro rfl
            exact hfind ('\\', '\\') (by decide) rfl

theorem isDigits_toDigits (n : Nat) : IsDigits (Nat.toDigits 10 n) :=
  ⟨Nat.toDigits_ne_nil, fun _ hc ↦ Nat.isDigit_of_mem_toDigits (by decide) (by decide) hc⟩

theorem numberText_printInteger (n : Int) : NumberText (printInteger n) := by
  cases n with
  | ofNat n =>
      have h : NumberText ([] ++ Nat.toDigits 10 n ++ [] ++ []) :=
        .mk (.inl rfl) (isDigits_toDigits n) .none .none
      simpa [printInteger] using h
  | negSucc n =>
      have h : NumberText (['-'] ++ Nat.toDigits 10 (n + 1) ++ [] ++ []) :=
        .mk (.inr rfl) (isDigits_toDigits (n + 1)) .none .none
      simpa [printInteger] using h

theorem digitValue_of_isDigit {c : Char} (h : c.isDigit = true) :
    digitValue 10 c = some (c.toNat - 48) := by
  have hrange : 48 ≤ c.toNat ∧ c.toNat ≤ 57 := by
    simpa [Char.isDigit, UInt32.le_iff_toNat_le] using h
  simp only [digitValue, if_pos hrange]
  rw [Option.filter_some, if_pos]
  simp only [decide_eq_true_eq]
  omega

theorem le_ofDigitChars (ds : List Char) (n : Nat) : n ≤ Nat.ofDigitChars 10 ds n := by
  induction ds generalizing n with
  | nil => exact Nat.le_refl n
  | cons d ds ih =>
      refine Nat.le_trans ?_ (ih (10 * n + (d.toNat - 48)))
      omega

theorem readDigits_ok {ds : List Char} (hds : ∀ d ∈ ds, d.isDigit = true) {limit n : Nat}
    (past : IntegerError) (h : Nat.ofDigitChars 10 ds n ≤ limit) :
    readDigits 10 limit past n ds = .ok (Nat.ofDigitChars 10 ds n) := by
  induction ds generalizing n with
  | nil => rfl
  | cons d ds ih =>
      have hnext : n * 10 + (d.toNat - 48) = 10 * n + (d.toNat - 48) := by omega
      have hlimit : ¬limit < 10 * n + (d.toNat - 48) :=
        Nat.not_lt.mpr (Nat.le_trans (le_ofDigitChars ds _) h)
      rw [readDigits, digitValue_of_isDigit (hds d List.mem_cons_self)]
      simp only [hnext, if_neg hlimit]
      exact ih (fun c hc ↦ hds c (List.mem_cons_of_mem d hc)) h

theorem readInteger_digits {ds : List Char} (h : IsDigits ds) (below above : Nat) :
    readInteger 10 below above ds = (readDigits 10 above .tooLarge 0 ds).map Int.ofNat := by
  obtain ⟨hne, hdigits⟩ := h
  unfold readInteger
  split
  · exact absurd rfl hne
  · have hsign := hdigits '+' List.mem_cons_self
    cases hsign
  · have hsign := hdigits '-' List.mem_cons_self
    cases hsign
  · have hsign := hdigits '+' List.mem_cons_self
    cases hsign
  · have hsign := hdigits '-' List.mem_cons_self
    cases hsign
  · rfl

theorem readInteger_minus {ds : List Char} (h : ds ≠ []) {below : Nat} (hbelow : 0 < below)
    (above : Nat) : readInteger 10 below above ('-' :: ds) =
      (readDigits 10 below .tooSmall 0 ds).map fun n ↦ -(n : Int) := by
  cases ds with
  | nil => exact absurd rfl h
  | cons d ds => simp only [readInteger, if_pos hbelow]

theorem readInt64_printInteger {n : Int} (hlow : -(Nat.pow 2 63 : Int) ≤ n)
    (hhigh : n < (Nat.pow 2 63 : Int)) :
    readInt64 (printInteger n) = .ok n := by
  have hread {m limit : Nat} (past : IntegerError) (hm : m ≤ limit) :
      readDigits 10 limit past 0 (Nat.toDigits 10 m) = .ok m := by
    have hvalue : Nat.ofDigitChars 10 (Nat.toDigits 10 m) 0 = m := Nat.ofDigitChars_ten_toDigits
    have hok := readDigits_ok (isDigits_toDigits m).2 past (hvalue.trans_le hm)
    rwa [hvalue] at hok
  cases n with
  | ofNat n =>
      have hn : n ≤ Nat.pow 2 63 - 1 := Nat.le_sub_one_of_lt (Int.ofNat_lt.mp hhigh)
      rw [printInteger, readInt64, readInteger_digits (isDigits_toDigits n), hread _ hn]
      rfl
  | negSucc n =>
      have hn : n + 1 ≤ Nat.pow 2 63 := Int.ofNat_le.mp (Int.neg_le_neg_iff.mp hlow)
      rw [printInteger, readInt64, readInteger_minus Nat.toDigits_ne_nil (by decide), hread _ hn]
      rfl

theorem operandText_printLiteral {v : Value} (h : LiteralWellFormed v) :
    OperandText (printLiteral v) (.literal v) := by
  unfold LiteralWellFormed at h
  split at h
  · have hname : ("nil", Value.null) ∈ keywords := by simp [keywords]
    exact .keyword hname
  · next b =>
      cases b with
      | true =>
          have hname : ("true", Value.bool true) ∈ keywords := by simp [keywords]
          exact .keyword hname
      | false =>
          have hname : ("false", Value.bool false) ∈ keywords := by simp [keywords]
          exact .keyword hname
  · next s =>
      have hquoted := OperandText.quoted (quotedText_escaped s.toList)
      rwa [String.ofList_toList] at hquoted
  · next n =>
      have hnumber := OperandText.number (numberText_printInteger n)
      rwa [literalValue, readInt64_printInteger h.1 h.2] at hnumber
  · cases h

/-! ## Printed pipelines -/

theorem not_freeName_of_mark {cs : List Char} (hmark : ∃ c ds, Mark c ∧ cs = c :: ds) :
    ¬FreeName (String.ofList cs) := by
  obtain ⟨c, ds, hc, rfl⟩ := hmark
  rintro ⟨hname, -⟩
  rw [String.toList_ofList] at hname
  have hfirst := hc.name?_eq_none ds
  obtain ⟨hletter, -⟩ := hname
  rw [name?, if_pos hletter] at hfirst
  cases hfirst

/-- No operand is printed as a name that stands for nothing by itself. -/
theorem not_freeName_printOperand {o : Operand} (h : OperandWellFormed o) :
    ¬FreeName (String.ofList (printOperand o)) := by
  have named {name : String} {v : Value} (hname : (name, v) ∈ keywords) :
      ¬FreeName (String.ofList name.toList) := by
    rw [String.ofList_toList]
    exact fun hfree ↦ hfree.2 v hname
  cases o with
  | literal v =>
      cases v with
      | null => exact named (v := .null) (by simp [keywords])
      | bool b =>
          cases b with
          | true => exact named (v := .bool true) (by simp [keywords])
          | false => exact named (v := .bool false) (by simp [keywords])
      | number n =>
          cases n with
          | integer n => exact not_freeName_of_mark (numberText_printInteger n).mark
          | double => exact False.elim h
      | string => exact not_freeName_of_mark ⟨'"', _, .inl (by decide), rfl⟩
      | array => exact False.elim h
      | object => exact False.elim h
  | field path =>
      cases path with
      | nil => exact not_freeName_of_mark ⟨'.', _, .inl (by decide), rfl⟩
      | cons => exact not_freeName_of_mark ⟨'.', _, .inl (by decide), rfl⟩
  | root => exact not_freeName_of_mark ⟨'$', _, .inl (by decide), rfl⟩
  | nested => exact not_freeName_of_mark ⟨'(', _, .inl (by decide), rfl⟩

mutual

theorem operandText_print : ∀ {o : Operand}, OperandWellFormed o → OperandText (printOperand o) o
  | .literal v, h => operandText_printLiteral h
  | .field [], _ => .dot
  | .field (key :: path), h => .field nofun h
  | .root path, h => .root h
  | .nested p, h => by
      have hgap : Gap [] := nofun
      have hnested := OperandText.nested hgap (pipelineText_print h) hgap
      simpa [printOperand] using hnested

theorem argumentsText_print : ∀ {os : List Operand}, ArgumentsWellFormed os →
    ArgumentsText (printArguments os) os
  | [], _ => .nil
  | o :: os, h => by
      have hgap : Gap [' '] := by simp [Gap, isGap]
      exact .cons hgap nofun (operandText_print h.1) (argumentsText_print h.2)

theorem commandText_print : ∀ {c : Command}, CommandWellFormed c → CommandText (printCommand c) c
  | .call _ _, h => .call h.1 (argumentsText_print h.2)
  | .operand _, h => .operand (operandText_print h) (not_freeName_printOperand h)

theorem pipelineText_print : ∀ {p : List Command}, PipelineWellFormed p →
    PipelineText (printPipeline p) p
  | [], h => False.elim h
  | [c], h => .single (commandText_print h)
  | c :: d :: p, h => by
      have hgap : Gap [' '] := by simp [Gap, isGap]
      have hcons := PipelineText.cons (commandText_print h.1) hgap hgap (pipelineText_print h.2)
      simpa [printPipeline] using hcons

end

theorem read_eq_ok {s : String} {p : Pipeline} :
    read s = .ok p ↔ PipelineText (trimBoth s.toList) p := by
  constructor
  · intro h
    simp only [read] at h
    split at h
    · next hread =>
        obtain rfl := Except.ok.inj h
        obtain ⟨piece, hpiece, htext⟩ := reads_pipeline _ hread
        rwa [hpiece, List.append_nil]
    · cases h
    · cases h
    · cases h
  · intro h
    simp only [read, h.read]

theorem PipelineText.unique {cs : List Char} {p q : Pipeline} (hp : PipelineText cs p)
    (hq : PipelineText cs q) : p = q := by
  have hread := hp.read.symm.trans hq.read
  exact (Reading.read.inj hread).1

/-- Reading accepts exactly the grammar. -/
theorem read_exact :
    (∀ (s : String) (p : Pipeline), read s = .ok p ↔ PipelineText (trimBoth s.toList) p) ∧
      (∀ (s : String) (p q : Pipeline), PipelineText (trimBoth s.toList) p →
        PipelineText (trimBoth s.toList) q → p = q) ∧
      ∀ p : Pipeline, PipelineWellFormed p → read (String.ofList (printPipeline p)) = .ok p := by
  refine ⟨fun s p ↦ read_eq_ok, fun s p q ↦ PipelineText.unique, fun p h ↦ ?_⟩
  have htext := pipelineText_print h
  rw [read_eq_ok, String.toList_ofList, htext.trimBoth]
  exact htext

def mixedStages : Pipeline :=
  [.operand (.field ["order", "total"]),
    .call "printf" [.literal (.string "%d \"net\""), .literal (.number (.integer (-42))),
      .nested [.call "upper" [.root ["name"]]], .literal .null]]

theorem read_exact_mixedStages :
    PipelineWellFormed mixedStages ∧
      read (String.ofList (printPipeline mixedStages)) = .ok mixedStages ∧
      ∀ q, PipelineText
          (trimBoth " .order.total| printf `%d \"net\"` -42\t( upper $.name) nil".toList) q →
        mixedStages = q := by
  have hwell : PipelineWellFormed mixedStages := by
    refine ⟨?_, ?_, ?_, ?_, ?_, ?_, ?_⟩
    · change ∀ key ∈ ["order", "total"], NameText key.toList
      decide
    · decide
    · trivial
    · constructor <;> decide
    · change FreeName "upper" ∧ (∀ key ∈ ["name"], NameText key.toList) ∧ True
      decide
    · trivial
    · trivial
  refine ⟨hwell, read_exact.2.2 _ hwell, fun q ↦ read_exact.2.1 _ _ q ?_⟩
  exact (read_exact.1 _ _).mp rfl

end Action

end PagedReport
