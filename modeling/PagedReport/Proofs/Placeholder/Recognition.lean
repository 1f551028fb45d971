import PagedReport.Proofs.Placeholder.Derivations

/-!
# Derived texts are read

A derived text is read as a whole wherever an operand, a command or a pipeline may end, so no
alternative that is tried first hides another one.
-/

namespace PagedReport

namespace Action

/-! ## What derived texts begin with -/

/-- A text that begins with neither a blank nor an end. -/
def Starts (cs : List Char) : Prop := ∃ c ∈ cs.head?, isBlank c = false ∧ c ≠ '|' ∧ c ≠ ')'

theorem Starts.append {cs : List Char} (h : Starts cs) (rest : List Char) :
    Starts (cs ++ rest) := by
  obtain ⟨c, hc, hsolid⟩ := h
  obtain ⟨ds, rfl⟩ := List.head?_eq_some_iff.mp hc
  exact ⟨c, rfl, hsolid⟩

theorem Solid.starts {p : Char → Bool} (hp : Solid p) {c : Char} (hc : p c = true)
    (cs : List Char) : Starts (c :: cs) := by
  refine ⟨c, rfl, ?_, ?_, ?_⟩
  · by_contra hblank
    rw [hp.1 c (by simpa using hblank)] at hc
    cases hc
  · rintro rfl
    rw [hp.2.1] at hc
    cases hc
  · rintro rfl
    rw [hp.2.2] at hc
    cases hc

theorem skipGap_append {gap cs : List Char} (hgap : Gap gap)
    (hcs : ∀ c ∈ cs.head?, isGap c = false) : skipGap (gap ++ cs) = cs :=
  (span_append hgap hcs).2

theorem Starts.skipGap_append {gap cs : List Char} (h : Starts cs) (hgap : Gap gap) :
    skipGap (gap ++ cs) = cs := by
  obtain ⟨c, hc, hsolid, -⟩ := h
  refine Action.skipGap_append hgap fun d hd ↦ ?_
  obtain rfl : d = c := Option.mem_unique hd hc
  by_contra hgap
  rw [isBlank_of_isGap (by simpa using hgap)] at hsolid
  cases hsolid

theorem NameText.starts {cs : List Char} (h : NameText cs) : Starts cs := by
  cases h with
  | mk first _ =>
      exact Solid.starts (p := fun c ↦ isAsciiLetter c || c == '_')
        (solid_of_any (by decide)) first _

/-- Characters that only operands other than names begin with. -/
def Mark (c : Char) : Prop := c ∈ ['"', '`', '$', '.', '(', '-'] ∨ c.isDigit = true

theorem Mark.starts {c : Char} (h : Mark c) (cs : List Char) : Starts (c :: cs) := by
  rcases h with h | h
  · exact Solid.starts (p := (· ∈ ['"', '`', '$', '.', '(', '-'])) (solid_of_any (by decide))
      (by simpa using h) cs
  · exact solid_isDigit.starts h cs

theorem Mark.name?_eq_none {c : Char} (h : Mark c) (cs : List Char) : name? (c :: cs) = none := by
  by_cases hfirst : (isAsciiLetter c || c == '_') = true
  · have hname : NameText [c] := .mk hfirst nofun
    obtain ⟨hmark, hsign, hdigit⟩ := hname.not_marks
    rcases h with h | h
    · simp_all
    · rw [h] at hdigit
      cases hdigit
  · rw [name?, if_neg hfirst]

theorem NumberText.mark {cs : List Char} (h : NumberText cs) : ∃ c ds, Mark c ∧ cs = c :: ds := by
  obtain @⟨sign, whole, frac, exp, hsign, ⟨hne, hdigits⟩, -, -⟩ := h
  rcases hsign with rfl | rfl
  · obtain ⟨d, ds, rfl⟩ := List.exists_cons_of_ne_nil hne
    exact ⟨d, _, .inr (hdigits d List.mem_cons_self), rfl⟩
  · exact ⟨'-', _, .inl (by decide), rfl⟩

/-- An operand is a name or begins with a mark. -/
theorem OperandText.name_or_mark {cs : List Char} {o : Operand} (h : OperandText cs o) :
    (∃ name v, (name, v) ∈ keywords ∧ cs = name.toList) ∨
      (∃ name, FreeName name ∧ cs = name.toList) ∨ ∃ c ds, Mark c ∧ cs = c :: ds := by
  cases h with
  | quoted => exact .inr (.inr ⟨'"', _, .inl (by decide), rfl⟩)
  | raw => exact .inr (.inr ⟨'`', _, .inl (by decide), rfl⟩)
  | root => exact .inr (.inr ⟨'$', _, .inl (by decide), rfl⟩)
  | dot => exact .inr (.inr ⟨'.', _, .inl (by decide), rfl⟩)
  | nested => exact .inr (.inr ⟨'(', _, .inl (by decide), rfl⟩)
  | number h => exact .inr (.inr h.mark)
  | field hne h =>
      obtain ⟨key, path, rfl⟩ := List.exists_cons_of_ne_nil hne
      exact .inr (.inr ⟨'.', _, .inl (by decide), rfl⟩)
  | @keyword name v h => exact .inl ⟨name, v, h, rfl⟩
  | @bare name h => exact .inr (.inl ⟨name, h, rfl⟩)

theorem OperandText.starts {cs : List Char} {o : Operand} (h : OperandText cs o) : Starts cs := by
  rcases h.name_or_mark with ⟨name, v, hname, rfl⟩ | ⟨name, hname, rfl⟩ | ⟨c, ds, hmark, rfl⟩
  · exact (nameText_of_keyword hname).starts
  · exact hname.1.starts
  · exact hmark.starts ds

theorem CommandText.starts {cs : List Char} {c : Command} (h : CommandText cs c) : Starts cs := by
  cases h with
  | call hname _ => exact hname.1.starts.append _
  | operand h _ => exact h.starts

theorem PipelineText.starts {cs : List Char} {p : Pipeline} (h : PipelineText cs p) :
    Starts cs := by
  cases h with
  | single h => exact h.starts
  | cons h _ _ _ =>
      rw [List.append_assoc, List.append_assoc]
      exact h.starts.append _

/-! ## What may follow them -/

/-- A text before which a command ends. -/
def Stops (rest : List Char) : Prop := ∀ c ∈ (skipGap rest).head?, c = '|' ∨ c = ')'

/-- A text before which a pipeline ends. -/
def Closes (rest : List Char) : Prop := ∀ c ∈ (skipGap rest).head?, c = ')'

theorem Closes.stops {rest : List Char} (h : Closes rest) : Stops rest := fun c hc ↦ .inr (h c hc)

theorem Stops.ends {rest : List Char} (h : Stops rest) : Ends rest := by
  intro c hc
  by_cases hgap : isGap c = true
  · exact .inl hgap
  · obtain ⟨cs, rfl⟩ := List.head?_eq_some_iff.mp hc
    exact .inr (h c (by simp [skipGap, hgap]))

theorem stops_of_gap {gap rest : List Char} (hgap : Gap gap) : Stops (gap ++ '|' :: rest) := by
  rw [Stops, skipGap_append hgap (by rintro c ⟨⟩; rfl)]
  rintro c ⟨⟩
  exact .inl rfl

theorem closes_of_gap {gap rest : List Char} (hgap : Gap gap) : Closes (gap ++ ')' :: rest) := by
  rw [Closes, skipGap_append hgap (by rintro c ⟨⟩; rfl)]
  rintro c ⟨⟩
  rfl

theorem ArgumentsText.ends {cs rest : List Char} {os : List Operand} (h : ArgumentsText cs os)
    (hrest : Stops rest) : Ends (cs ++ rest) := by
  cases h with
  | nil => exact hrest.ends
  | cons hgap hne _ _ =>
      rw [List.append_assoc, List.append_assoc]
      exact .of_gap hgap hne _

theorem ArgumentsText.length_le : ∀ {cs : List Char} {os : List Operand}, ArgumentsText cs os →
    os.length ≤ cs.length
  | _, _, .nil => Nat.le_refl _
  | _, _, @ArgumentsText.cons gap _ _ _ _ _ hne _ hrest => by
      have hgap : 0 < gap.length := List.length_pos_iff.mpr hne
      have hmore := hrest.length_le
      simp only [List.length_cons, List.length_append]
      omega

/-! ## One step of each reader -/

section

variable {inner : List Char → Reading Pipeline}

theorem operand_number {cs rest : List Char} (h : NumberText cs) (hrest : Ends rest) :
    operand inner (cs ++ rest) = .read (.literal (literalValue cs)) rest := by
  have hnumber := number?_append h hrest
  obtain @⟨sign, whole, frac, exp, hsign, ⟨hne, hdigits⟩, -, -⟩ := h
  obtain ⟨c, ds, hcs, hc⟩ : ∃ c ds, sign ++ whole ++ frac ++ exp = c :: ds ∧
      c ∉ ['"', '`', '$', '.', '('] := by
    rcases hsign with rfl | rfl
    · obtain ⟨d, ds, rfl⟩ := List.exists_cons_of_ne_nil hne
      refine ⟨d, _, rfl, fun hmem ↦ ?_⟩
      have hmarks : ['"', '`', '$', '.', '('].any Char.isDigit = false := by decide
      exact List.any_eq_false.mp hmarks d hmem (hdigits d List.mem_cons_self)
    · exact ⟨'-', _, rfl, by decide⟩
  rw [hcs, List.cons_append] at hnumber ⊢
  rw [operand_of_ne hc, hnumber]

theorem length_le_dotted (path : List String) : path.length ≤ (dotted path).length := by
  induction path with
  | nil => exact Nat.le_refl _
  | cons key path ih =>
      simp only [dotted, List.flatMap_cons, List.length_cons, List.length_append] at ih ⊢
      omega

theorem operand_field {path : List String} (hne : path ≠ [])
    (h : ∀ key ∈ path, NameText key.toList) {rest : List Char} (hrest : Ends rest) :
    operand inner (dotted path ++ rest) = .read (.field path) rest := by
  have hlength : path.length ≤ (dotted path ++ rest).length :=
    Nat.le_trans (length_le_dotted path) (by simp)
  have hsegments := segments_append h hrest hlength
  obtain ⟨key, path, rfl⟩ := List.exists_cons_of_ne_nil hne
  have htext : dotted (key :: path) ++ rest = '.' :: (key.toList ++ (dotted path ++ rest)) := by
    simp [dotted]
  rw [htext] at hsegments ⊢
  simp only [operand, hsegments]

theorem operand_dot {rest : List Char} (hrest : Ends rest) :
    operand inner ('.' :: rest) = .read (.field []) rest := by
  have hname : name? rest = none := by
    cases rest with
    | nil => rfl
    | cons c rest =>
        have hfirst : Solid fun c ↦ isAsciiLetter c || c == '_' := solid_of_any (by decide)
        have hc : (isAsciiLetter c || c == '_') = false := hrest.head_eq_false hfirst c rfl
        simp [name?, hc]
  have hsegments : segments ('.' :: rest).length ('.' :: rest) = ([], '.' :: rest) := by
    rw [List.length_cons, segments, hname]
  simp only [operand, hsegments]

theorem operand_keyword {name : String} {v : Value} (h : (name, v) ∈ keywords) {rest : List Char}
    (hrest : Ends rest) : operand inner (name.toList ++ rest) = .read (.literal v) rest := by
  have htext := nameText_of_keyword h
  have hname := name?_append htext (hrest.head_eq_false solid_continuesName)
  rw [operand_of_name htext, bare, hname, String.ofList_toList]
  simp only [keyword?_eq_some.mpr h]

theorem operand_bare {name : String} (h : FreeName name) {rest : List Char} (hrest : Ends rest) :
    operand inner (name.toList ++ rest) = .read (.nested [.call name []]) rest := by
  have hname := name?_append h.1 (hrest.head_eq_false solid_continuesName)
  rw [operand_of_name h.1, bare, hname, String.ofList_toList]
  simp only [keyword?_eq_none.mpr h.2]

theorem operand_parenthesised {before cs behind rest : List Char} {p : Pipeline}
    (hbefore : Gap before) (hcs : Starts cs) (hbehind : Gap behind)
    (h : inner (cs ++ (behind ++ ')' :: rest)) = .read p (behind ++ ')' :: rest)) :
    operand inner ('(' :: before ++ cs ++ behind ++ [')'] ++ rest) = .read (.nested p) rest := by
  have hopen :
      skipGap (before ++ (cs ++ (behind ++ ')' :: rest))) = cs ++ (behind ++ ')' :: rest) :=
    (hcs.append _).skipGap_append hbefore
  have hclose : skipGap (behind ++ ')' :: rest) = ')' :: rest :=
    skipGap_append hbehind (by rintro c ⟨⟩; rfl)
  simp only [List.cons_append, List.append_assoc, List.nil_append, operand, parenthesised, hopen, h,
    hclose]

/-- No operand begins where a command ends. -/
theorem operand_of_stops {rest : List Char} (h : Stops rest) :
    ∃ e, operand inner (skipGap rest) = .other e := by
  cases hskip : skipGap rest with
  | nil => exact ⟨_, rfl⟩
  | cons c cs =>
      rcases h c (by rw [hskip]; rfl) with rfl | rfl <;> exact ⟨_, rfl⟩

theorem arguments_of_stops {rest : List Char} (h : Stops rest) (fuel : Nat) :
    arguments inner fuel rest = .read [] rest := by
  cases fuel with
  | zero => rfl
  | succ fuel =>
      obtain ⟨e, he⟩ : ∃ e, operand inner (skipGap rest) = .other e := operand_of_stops h
      simp only [arguments, he]
      split <;> rfl

theorem arguments_cons {fuel : Nat} {gap cs rest rest' : List Char} {o : Operand}
    {os : List Operand} (hgap : Gap gap) (hne : gap ≠ []) (hcs : Starts cs)
    (ho : operand inner (cs ++ rest) = .read o rest)
    (hos : arguments inner fuel rest = .read os rest') :
    arguments inner (fuel + 1) (gap ++ cs ++ rest) = .read (o :: os) rest' := by
  have hskip : skipGap (gap ++ (cs ++ rest)) = cs ++ rest := (hcs.append rest).skipGap_append hgap
  have hlength : (cs ++ rest).length ≠ (gap ++ (cs ++ rest)).length := by
    have hpos : 0 < gap.length := List.length_pos_iff.mpr hne
    have htotal : (gap ++ (cs ++ rest)).length = gap.length + (cs ++ rest).length :=
      List.length_append
    omega
  simp only [List.append_assoc, arguments, hskip, if_neg hlength, ho, hos]

theorem command_call {name : String} (hname : FreeName name) {cs rest : List Char}
    {os : List Operand} (hcs : Ends cs) (hos : arguments inner cs.length cs = .read os rest) :
    command inner (name.toList ++ cs) = .read (.call name os) rest := by
  have htake := name?_append hname.1 (hcs.head_eq_false solid_continuesName)
  rw [String.ofList_toList] at htake
  simp only [command, htake, keyword?_eq_none.mpr hname.2, hos]
  rfl

theorem command_operand {cs rest : List Char} {o : Operand} (h : OperandText cs o)
    (hcall : ¬FreeName (String.ofList cs)) (hrest : Ends rest)
    (ho : operand inner (cs ++ rest) = .read o rest) :
    command inner (cs ++ rest) = .read (.operand o) rest := by
  rcases h.name_or_mark with ⟨name, v, hname, rfl⟩ | ⟨name, hname, rfl⟩ | ⟨c, ds, hmark, rfl⟩
  · have htake := name?_append (nameText_of_keyword hname) (hrest.head_eq_false solid_continuesName)
    rw [String.ofList_toList] at htake
    simp only [command, htake, keyword?_eq_some.mpr hname, ho]
    rfl
  · rw [String.ofList_toList] at hcall
    exact absurd hname hcall
  · simp only [command, List.cons_append, hmark.name?_eq_none]
    rw [← List.cons_append, ho]
    rfl

theorem stages_of_closes {rest : List Char} (h : Closes rest) (fuel : Nat) :
    stages inner fuel rest = .read [] rest := by
  cases fuel with
  | zero => rfl
  | succ fuel =>
      rw [stages]
      split
      · next after hskip =>
          have hbar : '|' = ')' := h '|' (by rw [hskip]; rfl)
          simp at hbar
      · rfl

variable (inner) in
/-- The first command of a pipeline is read and then the others, with any fuel that allows for as
many as they are. -/
def Unfolds (cs : List Char) (p : Pipeline) (rest : List Char) : Prop :=
  ∃ c more after, p = c :: more ∧ command inner cs = .read c after ∧ more.length ≤ after.length ∧
    after.length ≤ cs.length ∧
    ∀ fuel, more.length ≤ fuel → stages inner fuel after = .read more rest

theorem Unfolds.joined {cs rest : List Char} {p : Pipeline} (h : Unfolds inner cs p rest) :
    joined inner cs = .read p rest := by
  obtain ⟨c, more, after, rfl, hc, hlength, -, hmore⟩ := h
  simp only [Action.joined, hc, hmore after.length hlength]
  rfl

theorem Unfolds.single {cs rest : List Char} {c : Command} (hrest : Closes rest)
    (hc : command inner (cs ++ rest) = .read c rest) : Unfolds inner (cs ++ rest) [c] rest := by
  refine ⟨c, [], rest, rfl, hc, Nat.zero_le _, ?_, fun fuel _ ↦ stages_of_closes hrest fuel⟩
  rw [List.length_append]
  exact Nat.le_add_left _ _

theorem Unfolds.cons {cs before behind text rest : List Char} {c : Command} {p : Pipeline}
    (hbefore : Gap before) (hbehind : Gap behind) (htext : Starts text)
    (hc : command inner (cs ++ (before ++ '|' :: (behind ++ text))) =
      .read c (before ++ '|' :: (behind ++ text)))
    (h : Unfolds inner text p rest) :
    Unfolds inner (cs ++ (before ++ '|' :: (behind ++ text))) (c :: p) rest := by
  obtain ⟨c', more, after, rfl, hc', hlength, hafter, hmore⟩ := h
  refine ⟨c, c' :: more, _, rfl, hc, ?_, ?_, ?_⟩
  · simp only [List.length_cons, List.length_append]
    omega
  · exact Nat.le_trans (Nat.le_add_left _ cs.length) (Nat.le_of_eq List.length_append.symm)
  · intro fuel hfuel
    obtain ⟨fuel, rfl⟩ := Nat.exists_eq_succ_of_ne_zero (Nat.ne_of_gt (Nat.zero_lt_of_lt hfuel))
    have hbar : skipGap (before ++ '|' :: (behind ++ text)) = '|' :: (behind ++ text) :=
      skipGap_append hbefore (by rintro c ⟨⟩; rfl)
    have hskip : skipGap (behind ++ text) = text := htext.skipGap_append hbehind
    simp only [stages, hbar, hskip, hc', hmore fuel (Nat.le_of_succ_le_succ hfuel)]

end

/-! ## Reading what is derived -/

mutual

theorem OperandText.read : ∀ {cs : List Char} {o : Operand}, OperandText cs o →
    ∀ {depth : Nat} {rest : List Char}, cs.count '(' ≤ depth → Ends rest →
      operand (pipeline depth) (cs ++ rest) = .read o rest
  | _, _, @OperandText.quoted cs _ h, depth, rest, _, _ => by
      have hquoted := quoted_append h ('"' :: (cs ++ '"' :: rest)) [] rest
      simp only [List.cons_append, List.append_assoc, List.nil_append, operand, hquoted]
      rfl
  | _, _, .raw h, depth, rest, _, _ => by
      obtain ⟨htake, hdrop⟩ := backticks_append h rest
      simp only [List.cons_append, List.append_assoc, List.nil_append, operand, htake, hdrop]
  | _, _, .number h, depth, rest, _, hrest => operand_number h hrest
  | _, _, @OperandText.root path h, depth, rest, _, hrest => by
      have hlength : path.length ≤ (dotted path ++ rest).length :=
        Nat.le_trans (length_le_dotted path) (by simp)
      simp only [List.cons_append, operand, segments_append h hrest hlength]
  | _, _, .field hne h, depth, rest, _, hrest => operand_field hne h hrest
  | _, _, .dot, depth, rest, _, hrest => operand_dot hrest
  | _, _, @OperandText.nested _ cs _ _ hbefore h hbehind, depth, rest, hdepth, hrest => by
      -- the parenthesis in front takes one level of the depth, which is left for those inside
      have hcount : cs.count '(' + 1 ≤ depth := by
        refine Nat.le_trans ?_ hdepth
        simp
        omega
      obtain ⟨depth, rfl⟩ := Nat.exists_eq_succ_of_ne_zero (Nat.ne_of_gt (Nat.zero_lt_of_lt hcount))
      apply operand_parenthesised hbefore h.starts hbehind
      exact (h.unfolds (Nat.le_of_succ_le_succ hcount) (closes_of_gap hbehind)).joined
  | _, _, .keyword h, depth, rest, _, hrest => operand_keyword h hrest
  | _, _, .bare h, depth, rest, _, hrest => operand_bare h hrest

theorem ArgumentsText.read : ∀ {cs : List Char} {os : List Operand}, ArgumentsText cs os →
    ∀ {depth fuel : Nat} {rest : List Char}, cs.count '(' ≤ depth → Stops rest → os.length ≤ fuel →
      arguments (pipeline depth) fuel (cs ++ rest) = .read os rest
  | _, _, .nil, depth, fuel, rest, _, hrest, _ => arguments_of_stops hrest fuel
  | _, _, .cons hgap hne h hmore, depth, fuel, rest, hdepth, hrest, hfuel => by
      obtain ⟨fuel, rfl⟩ := Nat.exists_eq_succ_of_ne_zero (Nat.ne_of_gt (Nat.zero_lt_of_lt hfuel))
      rw [List.count_append, List.count_append] at hdepth
      rw [List.append_assoc]
      apply arguments_cons hgap hne h.starts
      · exact h.read (by omega) (hmore.ends hrest)
      · exact hmore.read (by omega) hrest (Nat.le_of_succ_le_succ hfuel)

theorem CommandText.read : ∀ {cs : List Char} {c : Command}, CommandText cs c →
    ∀ {depth : Nat} {rest : List Char}, cs.count '(' ≤ depth → Stops rest →
      command (pipeline depth) (cs ++ rest) = .read c rest
  | _, _, .call hname h, depth, rest, hdepth, hrest => by
      rw [List.count_append] at hdepth
      rw [List.append_assoc]
      apply command_call hname (h.ends hrest)
      refine h.read (by omega) hrest (Nat.le_trans h.length_le ?_)
      simp
  | _, _, .operand h hcall, depth, rest, hdepth, hrest =>
      command_operand h hcall hrest.ends (h.read hdepth hrest.ends)

theorem PipelineText.unfolds : ∀ {cs : List Char} {p : Pipeline}, PipelineText cs p →
    ∀ {depth : Nat} {rest : List Char}, cs.count '(' ≤ depth → Closes rest →
      Unfolds (pipeline depth) (cs ++ rest) p rest
  | _, _, .single h, depth, rest, hdepth, hrest =>
      .single hrest (h.read hdepth hrest.stops)
  | _, _, .cons h hbefore hbehind hmore, depth, rest, hdepth, hrest => by
      simp only [List.count_append, List.count_cons] at hdepth
      simp only [List.append_assoc, List.cons_append]
      apply Unfolds.cons hbefore hbehind (hmore.starts.append rest)
      · exact h.read (by omega) (stops_of_gap hbefore)
      · exact hmore.unfolds (by omega) hrest

end

/-- The depth that `read` allows is enough for any derived text. -/
theorem PipelineText.read {cs : List Char} {p : Pipeline} (h : PipelineText cs p) :
    pipeline (cs.count '(' + 1) cs = .read p [] := by
  have hcloses : Closes [] := nofun
  have hread := (h.unfolds (Nat.le_refl _) hcloses).joined
  rwa [List.append_nil] at hread

end Action

end PagedReport
