import PagedReport.Proofs.Placeholder.Pieces

/-!
# The grammar of actions

An unordered grammar says which texts are operands, commands and pipelines.  It knows nothing of
readers: no alternative comes before another and none takes as much as it can.  The second half
compares it with the readers of names, numbers and strings.
-/

namespace PagedReport

namespace Action

/-! ## Words -/

def Gap (cs : List Char) : Prop := ∀ c ∈ cs, isGap c = true

inductive NameText : List Char → Prop
  | mk {c : Char} {cs : List Char} (first : (isAsciiLetter c || c == '_') = true)
      (more : ∀ d ∈ cs, continuesName d = true) : NameText (c :: cs)

instance NameText.decidable : DecidablePred NameText
  | [] => isFalse nofun
  | c :: cs =>
      decidable_of_iff ((isAsciiLetter c || c == '_') = true ∧ cs.all continuesName = true)
        ⟨fun h ↦ .mk h.1 (List.all_eq_true.mp h.2),
          fun | .mk first more => ⟨first, List.all_eq_true.mpr more⟩⟩

def keywords : List (String × Value) :=
  [("true", .bool true), ("false", .bool false), ("nil", .null)]

/-- Names that stand for nothing by themselves. -/
def FreeName (name : String) : Prop := NameText name.toList ∧ ∀ v, (name, v) ∉ keywords

def IsDigits (cs : List Char) : Prop := cs ≠ [] ∧ ∀ c ∈ cs, c.isDigit = true

inductive FractionText : List Char → Prop
  | none : FractionText []
  | some {ds : List Char} (h : IsDigits ds) : FractionText ('.' :: ds)

inductive ExponentText : List Char → Prop
  | none : ExponentText []
  | some {mark : Char} {sign ds : List Char} (hmark : mark = 'e' ∨ mark = 'E')
      (hsign : sign = [] ∨ sign = ['+'] ∨ sign = ['-']) (h : IsDigits ds) :
      ExponentText (mark :: sign ++ ds)

inductive NumberText : List Char → Prop
  | mk {sign whole frac exp : List Char} (hsign : sign = [] ∨ sign = ['-'])
      (hwhole : IsDigits whole) (hfrac : FractionText frac) (hexp : ExponentText exp) :
      NumberText (sign ++ whole ++ frac ++ exp)

/-- The characters that stand for others behind a backslash. -/
def escapes : List (Char × Char) := [('n', '\n'), ('t', '\t'), ('\\', '\\'), ('"', '"')]

/-- What stands between quotes, and the string that it is. -/
inductive QuotedText : List Char → List Char → Prop
  | nil : QuotedText [] []
  | plain {c : Char} {cs s : List Char} (hquote : c ≠ '"') (hslash : c ≠ '\\')
      (h : QuotedText cs s) : QuotedText (c :: cs) (c :: s)
  | escape {e c : Char} {cs s : List Char} (he : (e, c) ∈ escapes) (h : QuotedText cs s) :
      QuotedText ('\\' :: e :: cs) (c :: s)

def dotted (path : List String) : List Char := path.flatMap fun key ↦ '.' :: key.toList

/-! ## Operands, commands and pipelines -/

mutual

inductive OperandText : List Char → Operand → Prop
  | quoted {cs s : List Char} (h : QuotedText cs s) :
      OperandText ('"' :: cs ++ ['"']) (.literal (.string (String.ofList s)))
  | raw {cs : List Char} (h : '`' ∉ cs) :
      OperandText ('`' :: cs ++ ['`']) (.literal (.string (String.ofList cs)))
  | number {cs : List Char} (h : NumberText cs) : OperandText cs (.literal (literalValue cs))
  | root {path : List String} (h : ∀ key ∈ path, NameText key.toList) :
      OperandText ('$' :: dotted path) (.root path)
  | field {path : List String} (hne : path ≠ []) (h : ∀ key ∈ path, NameText key.toList) :
      OperandText (dotted path) (.field path)
  | dot : OperandText ['.'] (.field [])
  | nested {before cs behind : List Char} {p : Pipeline} (hbefore : Gap before)
      (h : PipelineText cs p) (hbehind : Gap behind) :
      OperandText ('(' :: before ++ cs ++ behind ++ [')']) (.nested p)
  | keyword {name : String} {v : Value} (h : (name, v) ∈ keywords) :
      OperandText name.toList (.literal v)
  /-- A call without arguments. -/
  | bare {name : String} (h : FreeName name) : OperandText name.toList (.nested [.call name []])

inductive ArgumentsText : List Char → List Operand → Prop
  | nil : ArgumentsText [] []
  | cons {gap cs rest : List Char} {o : Operand} {os : List Operand} (hgap : Gap gap)
      (hne : gap ≠ []) (h : OperandText cs o) (hrest : ArgumentsText rest os) :
      ArgumentsText (gap ++ cs ++ rest) (o :: os)

inductive CommandText : List Char → Command → Prop
  | call {name : String} {cs : List Char} {os : List Operand} (hname : FreeName name)
      (h : ArgumentsText cs os) : CommandText (name.toList ++ cs) (.call name os)
  | operand {cs : List Char} {o : Operand} (h : OperandText cs o)
      (hcall : ¬FreeName (String.ofList cs)) : CommandText cs (.operand o)

inductive PipelineText : List Char → Pipeline → Prop
  | single {cs : List Char} {c : Command} (h : CommandText cs c) : PipelineText cs [c]
  | cons {cs before behind rest : List Char} {c : Command} {p : Pipeline} (h : CommandText cs c)
      (hbefore : Gap before) (hbehind : Gap behind) (hrest : PipelineText rest p) :
      PipelineText (cs ++ before ++ '|' :: behind ++ rest) (c :: p)

end

/-! ## What may follow a word -/

/-- A text before which an operand ends, whatever it is. -/
def Ends (rest : List Char) : Prop := ∀ c ∈ rest.head?, isGap c = true ∨ c = '|' ∨ c = ')'

/-- A class of characters that holds neither a blank nor the end of an operand. -/
def Solid (p : Char → Bool) : Prop :=
  (∀ c, isBlank c = true → p c = false) ∧ p '|' = false ∧ p ')' = false

theorem solid_of_any {p : Char → Bool} (h : ('|' :: ')' :: blanks).any p = false) : Solid p := by
  have hall : ∀ c ∈ '|' :: ')' :: blanks, p c = false := fun c hc ↦
    Bool.eq_false_iff.mpr (List.any_eq_false.mp h c hc)
  refine ⟨fun c hc ↦ hall c ?_, hall _ (by simp), hall _ (by simp)⟩
  exact List.mem_cons_of_mem _ (List.mem_cons_of_mem _ (mem_blanks hc))

theorem isBlank_of_isGap {c : Char} (h : isGap c = true) : isBlank c = true := by
  have hgap : ((c = ' ' ∨ c = '\t') ∨ c = '\r') ∨ c = '\n' := by simpa [isGap] using h
  rcases hgap with ((rfl | rfl) | rfl) | rfl <;> decide

theorem solid_continuesName : Solid continuesName := by
  have hruns (s : CodePoints) (c : Char) :
      s.contains c = s.toList.any fun run ↦ run.1 ≤ c.toNat && c.toNat ≤ run.2 :=
    Array.any_toList.symm
  -- a list is walked once for each blank, an array once for each of its places
  have hclass : continuesName = fun c ↦ (if c.toNat < 128 then c.isAlphanum else
      alphanumerics.toList.any fun run ↦ run.1 ≤ c.toNat && c.toNat ≤ run.2) || c == '_' := by
    funext c
    rw [continuesName, isAlphanumeric, hruns]
  apply solid_of_any
  rw [hclass]
  decide +kernel

theorem solid_isDigit : Solid Char.isDigit := solid_of_any (by decide)

namespace Ends

theorem head_eq_false {rest : List Char} (h : Ends rest) {p : Char → Bool} (hp : Solid p) :
    ∀ c ∈ rest.head?, p c = false := by
  intro c hc
  rcases h c hc with hgap | rfl | rfl
  · exact hp.1 c (isBlank_of_isGap hgap)
  · exact hp.2.1
  · exact hp.2.2

theorem of_gap {gap : List Char} (hgap : Gap gap) (hne : gap ≠ []) (rest : List Char) :
    Ends (gap ++ rest) := by
  obtain ⟨c, cs, rfl⟩ := List.exists_cons_of_ne_nil hne
  intro d hd
  obtain rfl : c = d := by simpa using hd
  exact .inl (hgap c List.mem_cons_self)

theorem head_ne {rest : List Char} (h : Ends rest) {c : Char} (hc : isGap c = false)
    (hbar : c ≠ '|') (hclose : c ≠ ')') (ds : List Char) : rest ≠ c :: ds := by
  rintro rfl
  rcases h c rfl with hgap | hb | hb
  · rw [hc] at hgap; cases hgap
  · exact hbar hb
  · exact hclose hb

end Ends

/-- A run of a class of characters is taken off the front as a whole if the class ends there. -/
theorem span_append {p : Char → Bool} {cs rest : List Char} (hcs : ∀ c ∈ cs, p c = true)
    (hrest : ∀ c ∈ rest.head?, p c = false) :
    (cs ++ rest).takeWhile p = cs ∧ (cs ++ rest).dropWhile p = rest := by
  rw [List.takeWhile_append_of_pos hcs, List.dropWhile_append_of_pos hcs]
  cases rest with
  | nil => simp
  | cons c rest =>
      have hc : p c = false := hrest c rfl
      simp [hc]

/-! ## Names -/

theorem name?_append {name rest : List Char} (h : NameText name)
    (hrest : ∀ c ∈ rest.head?, continuesName c = false) :
    name? (name ++ rest) = some (String.ofList name, rest) := by
  obtain ⟨hfirst, hmore⟩ := h
  obtain ⟨htake, hdrop⟩ := span_append hmore hrest
  rw [List.cons_append, name?, if_pos hfirst, htake, hdrop]

theorem name?_eq_some {cs rest : List Char} {name : String} (h : name? cs = some (name, rest)) :
    cs = name.toList ++ rest ∧ NameText name.toList := by
  cases cs with
  | nil => simp [name?] at h
  | cons c cs =>
      simp only [name?] at h
      split at h
      · next hc =>
          obtain ⟨rfl, rfl⟩ := Prod.mk.inj (Option.some.inj h)
          rw [String.toList_ofList]
          refine ⟨?_, .mk hc fun d hd ↦ List.mem_takeWhile_imp hd⟩
          rw [List.cons_append, List.takeWhile_append_dropWhile]
      · simp at h

theorem keyword?_eq_some {name : String} {v : Value} :
    keyword? name = some v ↔ (name, v) ∈ keywords := by
  unfold keyword? keywords
  constructor
  · intro h
    split at h
    · next hname => simp_all
    · split at h
      · next hname => simp_all
      · split at h
        · next hname => simp_all
        · cases h
  · intro h
    simp only [List.mem_cons, Prod.mk.injEq, List.not_mem_nil, or_false] at h
    rcases h with ⟨rfl, rfl⟩ | ⟨rfl, rfl⟩ | ⟨rfl, rfl⟩ <;> rfl

theorem keyword?_eq_none {name : String} : keyword? name = none ↔ ∀ v, (name, v) ∉ keywords := by
  rw [Option.eq_none_iff_forall_ne_some]
  exact forall_congr' fun v ↦ not_congr keyword?_eq_some

instance FreeName.decidable : DecidablePred FreeName := fun name ↦
  decidable_of_iff (NameText name.toList ∧ keyword? name = none)
    (and_congr_right fun _ ↦ keyword?_eq_none)

theorem nameText_of_keyword {name : String} {v : Value} (h : (name, v) ∈ keywords) :
    NameText name.toList := by
  have hname : name = "true" ∨ name = "false" ∨ name = "nil" := by
    simp only [keywords, List.mem_cons, Prod.mk.injEq, List.not_mem_nil, or_false] at h
    rcases h with h | h | h
    · exact .inl h.1
    · exact .inr (.inl h.1)
    · exact .inr (.inr h.1)
  rcases hname with rfl | rfl | rfl <;> decide

/-! ## Numbers -/

theorem digits?_append {ds rest : List Char} (h : IsDigits ds)
    (hrest : ∀ c ∈ rest.head?, c.isDigit = false) : digits? (ds ++ rest) = some (ds, rest) := by
  obtain ⟨hne, hall⟩ := h
  simp [digits?, (span_append hall hrest).1, hne]

theorem digits?_eq_none {rest : List Char} (h : ∀ c ∈ rest.head?, c.isDigit = false) :
    digits? rest = none := by
  have hnil : ∀ c ∈ ([] : List Char), c.isDigit = true := nofun
  have htake := (span_append hnil h).1
  rw [List.nil_append] at htake
  simp [digits?, htake]

/-- A sign before digits, among the characters that are signs. -/
theorem sign_append {p : Char → Bool} {sign ds : List Char}
    (hsign : sign = [] ∨ ∃ c, p c = true ∧ sign = [c]) (hp : ∀ c, c.isDigit = true → p c = false)
    (hds : IsDigits ds) (rest : List Char) :
    ((sign ++ (ds ++ rest)).take 1).filter p = sign := by
  obtain ⟨hne, hall⟩ := hds
  obtain ⟨d, ds, rfl⟩ := List.exists_cons_of_ne_nil hne
  rcases hsign with rfl | ⟨c, hc, rfl⟩
  · have hd : p d = false := hp d (hall d List.mem_cons_self)
    simp [hd]
  · simp [hc]

theorem take_filter_sign (p : Char → Bool) (cs : List Char) :
    ((cs.take 1).filter p = [] ∨ ∃ c, p c = true ∧ (cs.take 1).filter p = [c]) ∧
      cs = (cs.take 1).filter p ++ cs.drop ((cs.take 1).filter p).length := by
  cases cs with
  | nil => simp
  | cons c cs =>
      cases hc : p c with
      | true => simp [hc]
      | false => simp [hc]

theorem fraction_append {frac rest : List Char} (h : FractionText frac)
    (hrest : ∀ c ∈ rest.head?, c.isDigit = false ∧ c ≠ '.') :
    fraction (frac ++ rest) = (frac, rest) := by
  cases h with
  | none =>
      unfold fraction
      split
      · next cs heq =>
          subst heq
          exact absurd rfl (hrest '.' rfl).2
      · rfl
  | some h =>
      rw [List.cons_append, fraction, digits?_append h fun c hc ↦ (hrest c hc).1]

theorem fraction_eq (cs : List Char) :
    cs = (fraction cs).1 ++ (fraction cs).2 ∧ FractionText (fraction cs).1 := by
  unfold fraction
  split
  · next cs =>
      cases hd : digits? cs with
      | none => exact ⟨rfl, .none⟩
      | some r =>
          obtain ⟨ds, rest⟩ := r
          obtain ⟨rfl, hds⟩ := digits?_eq_some hd
          exact ⟨rfl, .some hds⟩
  · exact ⟨rfl, .none⟩

theorem exponent_append {exp rest : List Char} (h : ExponentText exp) (hrest : Ends rest) :
    exponent (exp ++ rest) = (exp, rest) := by
  cases h with
  | none =>
      cases rest with
      | nil => rfl
      | cons c rest =>
          have hc : (c == 'e' || c == 'E') = false :=
            hrest.head_eq_false (p := fun c ↦ c == 'e' || c == 'E')
              (solid_of_any (by decide)) c rfl
          simp [exponent, hc]
  | @some mark sign ds hmark hsign h =>
      have hmarks : (mark == 'e' || mark == 'E') = true := by simpa using hmark
      have hsigns : sign = [] ∨ ∃ c, (c == '+' || c == '-') = true ∧ sign = [c] := by
        rcases hsign with rfl | rfl | rfl
        · exact .inl rfl
        · exact .inr ⟨'+', rfl, rfl⟩
        · exact .inr ⟨'-', rfl, rfl⟩
      have hdigit : ∀ c : Char, c.isDigit = true → (c == '+' || c == '-') = false := by
        intro c hc
        rw [Bool.or_eq_false_iff, beq_eq_false_iff_ne, beq_eq_false_iff_ne]
        constructor <;> rintro rfl <;> simp at hc
      have hfilter := sign_append hsigns hdigit h rest
      have hdigits := digits?_append h (hrest.head_eq_false solid_isDigit)
      have hdrop : (sign ++ (ds ++ rest)).drop sign.length = ds ++ rest := List.drop_left
      rw [List.cons_append, List.cons_append, List.append_assoc, exponent]
      simp only [hmarks, if_true, hfilter, hdrop, hdigits]
      rfl

theorem exponent_eq (cs : List Char) :
    cs = (exponent cs).1 ++ (exponent cs).2 ∧ ExponentText (exponent cs).1 := by
  cases cs with
  | nil => exact ⟨rfl, .none⟩
  | cons c cs =>
      obtain ⟨hsign, heq⟩ := take_filter_sign (fun s ↦ s == '+' || s == '-') cs
      rw [exponent]
      simp only
      split
      · next hmark =>
          split
          · next ds rest hd =>
              obtain ⟨hrest, hds⟩ := digits?_eq_some hd
              rw [hrest] at heq
              refine ⟨by simpa using heq, .some (by simpa using hmark) ?_ hds⟩
              rcases hsign with hnil | ⟨s, hs, hone⟩
              · exact .inl hnil
              · right
                rcases (by simpa using hs : s = '+' ∨ s = '-') with rfl | rfl
                · exact .inl hone
                · exact .inr hone
          · exact ⟨rfl, .none⟩
      · exact ⟨rfl, .none⟩

theorem number?_append {cs rest : List Char} (h : NumberText cs) (hrest : Ends rest) :
    number? (cs ++ rest) = some (literalValue cs, rest) := by
  obtain @⟨sign, whole, frac, exp, hsign, hwhole, hfrac, hexp⟩ := h
  have hsigns : sign = [] ∨ ∃ c, (c == '-') = true ∧ sign = [c] := by
    rcases hsign with rfl | rfl
    · exact .inl rfl
    · exact .inr ⟨'-', rfl, rfl⟩
  have hdigit : ∀ c : Char, c.isDigit = true → (c == '-') = false := by
    rintro c hc
    rw [beq_eq_false_iff_ne]
    rintro rfl
    simp at hc
  -- neither a fraction nor an exponent begins with a digit, nor an exponent with a point
  have hbehind : ∀ c ∈ (exp ++ rest).head?, c.isDigit = false ∧ c ≠ '.' := by
    intro c hc
    cases hexp with
    | none =>
        refine ⟨hrest.head_eq_false solid_isDigit c hc, ?_⟩
        have hpoint : Solid (· == '.') := solid_of_any (by decide)
        simpa using hrest.head_eq_false hpoint c hc
    | some hmark _ _ =>
        obtain rfl := Option.some.inj hc
        rcases hmark with rfl | rfl <;> decide
  have hnext : ∀ c ∈ (frac ++ (exp ++ rest)).head?, c.isDigit = false := by
    intro c hc
    cases hfrac with
    | none => exact (hbehind c hc).1
    | some h =>
        obtain rfl := Option.some.inj hc
        rfl
  have hfilter := sign_append hsigns hdigit hwhole (frac ++ (exp ++ rest))
  have hdrop : (sign ++ (whole ++ (frac ++ (exp ++ rest)))).drop sign.length =
      whole ++ (frac ++ (exp ++ rest)) := List.drop_left
  simp only [List.append_assoc, number?, hfilter, hdrop, digits?_append hwhole hnext,
    fraction_append hfrac hbehind, exponent_append hexp hrest]

theorem number?_eq_some {cs rest : List Char} {v : Value} (h : number? cs = some (v, rest)) :
    ∃ text, cs = text ++ rest ∧ NumberText text ∧ v = literalValue text := by
  obtain ⟨hsign, heq⟩ := take_filter_sign (· == '-') cs
  simp only [number?] at h
  split at h
  · cases h
  · next whole after hd =>
      obtain ⟨rfl, rfl⟩ := Prod.mk.inj (Option.some.inj h)
      obtain ⟨hafter, hwhole⟩ := digits?_eq_some hd
      obtain ⟨hfrac, hfracText⟩ := fraction_eq after
      obtain ⟨hexp, hexpText⟩ := exponent_eq (fraction after).2
      refine ⟨_, ?_, .mk ?_ hwhole hfracText hexpText, rfl⟩
      · rw [List.append_assoc, ← hexp, List.append_assoc, ← hfrac, List.append_assoc, ← hafter]
        exact heq
      · rcases hsign with hnil | ⟨s, hs, hone⟩
        · exact .inl hnil
        · rw [beq_iff_eq.mp hs] at hone
          exact .inr hone

/-! ## Strings -/

theorem quoted_append {cs s : List Char} (h : QuotedText cs s) (opening acc rest : List Char) :
    quoted opening acc (cs ++ '"' :: rest) =
      .read (.string (String.ofList (acc.reverse ++ s))) rest := by
  induction h generalizing acc with
  | nil => simp [quoted]
  | @plain c cs s hquote hslash _ ih =>
      rw [List.cons_append, quoted, ih]
      · simp
      all_goals simp_all
  | @escape e c cs s he _ ih =>
      have hstep : quoted opening acc ('\\' :: e :: (cs ++ '"' :: rest)) =
          quoted opening (c :: acc) (cs ++ '"' :: rest) := by
        simp only [escapes, List.mem_cons, Prod.mk.injEq, List.not_mem_nil, or_false] at he
        rcases he with ⟨rfl, rfl⟩ | ⟨rfl, rfl⟩ | ⟨rfl, rfl⟩ | ⟨rfl, rfl⟩ <;> rw [quoted]
      rw [List.cons_append, List.cons_append, hstep, ih]
      simp

theorem quotedText_of_read {opening acc cs rest : List Char} {v : Value}
    (h : quoted opening acc cs = .read v rest) : ∃ text s, QuotedText text s ∧
      cs = text ++ '"' :: rest ∧ v = .string (String.ofList (acc.reverse ++ s)) := by
  have escaped {e c : Char} {acc ds : List Char} (he : (e, c) ∈ escapes)
      (hds : ∃ text s, QuotedText text s ∧ ds = text ++ '"' :: rest ∧
        v = .string (String.ofList ((c :: acc).reverse ++ s))) :
      ∃ text s, QuotedText text s ∧ '\\' :: e :: ds = text ++ '"' :: rest ∧
        v = .string (String.ofList (acc.reverse ++ s)) := by
    obtain ⟨text, s, htext, rfl, rfl⟩ := hds
    exact ⟨_, _, .escape he htext, rfl, by simp⟩
  fun_induction quoted opening acc cs with
  | case1 => cases h
  | case2 acc cs =>
      obtain ⟨rfl, rfl⟩ := Reading.read.inj h
      exact ⟨[], [], .nil, rfl, by simp⟩
  | case3 acc cs ih | case4 acc cs ih | case5 acc cs ih | case6 acc cs ih =>
      exact escaped (by simp [escapes]) (ih h)
  | case7 => cases h
  | case8 acc c cs hquote _ _ _ _ hslash ih =>
      obtain ⟨text, s, htext, rfl, rfl⟩ := ih h
      exact ⟨_, _, .plain (by simpa using hquote) (by simpa using hslash) htext, rfl, by simp⟩

theorem backticks_append {cs : List Char} (h : '`' ∉ cs) (rest : List Char) :
    (cs ++ '`' :: rest).takeWhile (· != '`') = cs ∧
      (cs ++ '`' :: rest).dropWhile (· != '`') = '`' :: rest := by
  apply span_append
  · intro c hc
    simpa using fun heq : c = '`' ↦ h (heq ▸ hc)
  · intro c hc
    obtain rfl : c = '`' := by simpa using hc.symm
    rfl

/-! ## Paths -/

theorem segments_append {path : List String} {rest : List Char}
    (h : ∀ key ∈ path, NameText key.toList) (hrest : Ends rest) {fuel : Nat}
    (hfuel : path.length ≤ fuel) : segments fuel (dotted path ++ rest) = (path, rest) := by
  induction path generalizing fuel with
  | nil =>
      have hdot : ∀ ds, rest ≠ '.' :: ds := hrest.head_ne rfl (by decide) (by decide)
      change segments fuel rest = ([], rest)
      unfold segments
      split
      · rfl
      · next cs => exact absurd rfl (hdot cs)
      · rfl
  | cons key path ih =>
      obtain ⟨fuel, rfl⟩ := Nat.exists_eq_succ_of_ne_zero (Nat.ne_of_gt (Nat.zero_lt_of_lt hfuel))
      have hmore := ih (fun k hk ↦ h k (List.mem_cons_of_mem key hk)) (Nat.le_of_succ_le_succ hfuel)
      -- a name ends before the next point as well as before the end of the operand
      have hnext : ∀ c ∈ (dotted path ++ rest).head?, continuesName c = false := by
        cases path with
        | nil => exact hrest.head_eq_false solid_continuesName
        | cons key' path =>
            intro c hc
            obtain rfl : '.' = c := by simpa [dotted] using hc
            decide
      have hname := name?_append (h key List.mem_cons_self) hnext
      rw [String.ofList_toList] at hname
      have htext : dotted (key :: path) ++ rest = '.' :: (key.toList ++ (dotted path ++ rest)) := by
        simp [dotted]
      rw [htext, segments, hname]
      simp only [hmore]

theorem segments_eq {fuel : Nat} {cs rest : List Char} {path : List String}
    (h : segments fuel cs = (path, rest)) :
    cs = dotted path ++ rest ∧ ∀ key ∈ path, NameText key.toList := by
  induction fuel generalizing cs path with
  | zero =>
      obtain ⟨rfl, rfl⟩ := Prod.mk.inj h
      exact ⟨rfl, nofun⟩
  | succ fuel ih =>
      unfold segments at h
      split at h
      · next heq => simp at heq
      · next n cs heq =>
          obtain rfl := Nat.succ.inj heq
          split at h
          · next key after hname =>
              obtain ⟨htext, hkey⟩ := name?_eq_some hname
              cases hmore : segments fuel after with
              | mk keys rest' =>
                  rw [hmore] at h
                  obtain ⟨rfl, rfl⟩ := Prod.mk.inj h
                  obtain ⟨hafter, hkeys⟩ := ih hmore
                  refine ⟨by rw [htext, hafter]; simp [dotted], ?_⟩
                  intro k hk
                  rcases List.mem_cons.mp hk with rfl | hk
                  · exact hkey
                  · exact hkeys k hk
          · obtain ⟨rfl, rfl⟩ := Prod.mk.inj h
            exact ⟨rfl, nofun⟩
      · obtain ⟨rfl, rfl⟩ := Prod.mk.inj h
        exact ⟨rfl, nofun⟩

end Action

end PagedReport
