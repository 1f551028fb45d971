import PagedReport.Proofs.Placeholder.Grammar

/-!
# Reading is deriving

What a reader takes off the front of a text is derived by the grammar: one lemma for each reader,
and the recursion is on how deep parentheses nest.
-/

namespace PagedReport

namespace Action

/-- A reader of texts of one kind. -/
def Reads {α : Type} (text : List Char → α → Prop) (read : List Char → Reading α) : Prop :=
  ∀ {cs rest : List Char} {a : α}, read cs = .read a rest →
    ∃ piece, cs = piece ++ rest ∧ text piece a

theorem skipGap_eq (cs : List Char) : ∃ gap, Gap gap ∧ cs = gap ++ skipGap cs :=
  ⟨cs.takeWhile isGap, fun _ hc ↦ List.mem_takeWhile_imp hc,
    List.takeWhile_append_dropWhile.symm⟩

theorem reads_bare : Reads OperandText bare := by
  intro cs rest o h
  simp only [bare] at h
  split at h
  · cases h
  · next name after hname =>
      obtain ⟨htext, hnameText⟩ := name?_eq_some hname
      split at h
      · next v hv =>
          obtain ⟨rfl, rfl⟩ := Reading.read.inj h
          exact ⟨_, htext, .keyword (keyword?_eq_some.mp hv)⟩
      · next hv =>
          obtain ⟨rfl, rfl⟩ := Reading.read.inj h
          exact ⟨_, htext, .bare ⟨hnameText, keyword?_eq_none.mp hv⟩⟩

section

variable {inner : List Char → Reading Pipeline}

theorem reads_parenthesised (hinner : Reads PipelineText inner) {opening cs rest : List Char}
    {o : Operand} (h : parenthesised inner opening cs = .read o rest) :
    ∃ piece, '(' :: cs = piece ++ rest ∧ OperandText piece o := by
  simp only [parenthesised] at h
  split at h
  · next p after hp =>
      split at h
      · next hclose =>
          obtain ⟨rfl, rfl⟩ := Reading.read.inj h
          obtain ⟨before, hbefore, hcs⟩ := skipGap_eq cs
          obtain ⟨text, htext, hpipeline⟩ := hinner hp
          obtain ⟨behind, hbehind, hafter⟩ := skipGap_eq after
          refine ⟨_, ?_, .nested hbefore hpipeline hbehind⟩
          rw [hclose] at hafter
          rw [hcs, htext, hafter]
          simp
      · cases h
  · cases h
  · cases h

theorem reads_operand (hinner : Reads PipelineText inner) : Reads OperandText (operand inner) := by
  intro cs rest o h
  unfold operand at h
  split at h
  · next cs =>
      obtain ⟨v, hv, rfl⟩ := map_eq_read h
      obtain ⟨text, s, htext, rfl, rfl⟩ := quotedText_of_read hv
      exact ⟨_, by simp, .quoted htext⟩
  · next cs =>
      split at h
      · next c after hafter =>
          obtain ⟨rfl, rfl⟩ := Reading.read.inj h
          have hc : c = '`' := by simpa [hafter] using List.head?_dropWhile_not (· != '`') cs
          have hcs := List.takeWhile_append_dropWhile (p := (· != '`')) (l := cs)
          have hraw : '`' ∉ cs.takeWhile (· != '`') := fun hmem ↦ by
            simpa using List.mem_takeWhile_imp hmem
          refine ⟨_, ?_, .raw hraw⟩
          rw [hafter, hc] at hcs
          simpa using hcs.symm
      · cases h
  · next cs =>
      obtain ⟨rfl, rfl⟩ := Reading.read.inj h
      have hsplit : segments cs.length cs =
        ((segments cs.length cs).1, (segments cs.length cs).2) := rfl
      obtain ⟨htext, hpath⟩ := segments_eq hsplit
      refine ⟨_, ?_, .root hpath⟩
      rw [List.cons_append, ← htext]
  · next cs =>
      split at h
      · next heq =>
          obtain ⟨rfl, rfl⟩ := Reading.read.inj h
          exact ⟨_, rfl, .dot⟩
      · next path after hne heq =>
          obtain ⟨rfl, rfl⟩ := Reading.read.inj h
          obtain ⟨htext, hpath⟩ := segments_eq heq
          refine ⟨_, htext, .field ?_ hpath⟩
          rintro rfl
          exact hne rfl
  · exact reads_parenthesised hinner h
  · split at h
    · next hnumber =>
        obtain ⟨rfl, rfl⟩ := Reading.read.inj h
        obtain ⟨text, htext, hnumberText, rfl⟩ := number?_eq_some hnumber
        exact ⟨text, htext, .number hnumberText⟩
    · exact reads_bare h

theorem reads_arguments (hinner : Reads PipelineText inner) (fuel : Nat) :
    Reads ArgumentsText (arguments inner fuel) := by
  induction fuel with
  | zero =>
      intro cs rest os h
      obtain ⟨rfl, rfl⟩ := Reading.read.inj h
      exact ⟨[], rfl, .nil⟩
  | succ fuel ih =>
      intro cs rest os h
      simp only [arguments] at h
      split at h
      · obtain ⟨rfl, rfl⟩ := Reading.read.inj h
        exact ⟨[], rfl, .nil⟩
      · next hlength =>
          split at h
          · next o after ho =>
              obtain ⟨gap, hgap, hcs⟩ := skipGap_eq cs
              have hne : gap ≠ [] := by
                rintro rfl
                rw [List.nil_append] at hcs
                exact hlength (congrArg List.length hcs.symm)
              obtain ⟨text, htext, hoperand⟩ := reads_operand hinner ho
              split at h
              · next hmore =>
                  obtain ⟨rfl, rfl⟩ := Reading.read.inj h
                  obtain ⟨texts, htexts, hoperands⟩ := ih hmore
                  refine ⟨_, ?_, .cons hgap hne hoperand hoperands⟩
                  rw [hcs, htext, htexts]
                  simp
              · cases h
              · cases h
          · obtain ⟨rfl, rfl⟩ := Reading.read.inj h
            exact ⟨[], rfl, .nil⟩
          · cases h

theorem operand_of_ne {c : Char} (hc : c ∉ ['"', '`', '$', '.', '(']) (cs : List Char) :
    operand inner (c :: cs) =
      match number? (c :: cs) with
      | some (v, rest) => .read (.literal v) rest
      | none => bare (c :: cs) := by
  unfold operand
  split
  case h_6 => rfl
  all_goals simp_all

theorem number?_eq_none {c : Char} (hc : c ≠ '-' ∧ c.isDigit = false) (cs : List Char) :
    number? (c :: cs) = none := by
  have hsign : ((c :: cs).take 1).filter (· == '-') = [] := by simp [hc.1]
  simp only [number?, hsign, List.length_nil, List.drop_zero]
  rw [digits?_eq_none]
  intro d hd
  obtain rfl : c = d := Option.some.inj hd
  exact hc.2

theorem NameText.not_marks {c : Char} {cs : List Char} (h : NameText (c :: cs)) :
    c ∉ ['"', '`', '$', '.', '('] ∧ c ≠ '-' ∧ c.isDigit = false := by
  obtain ⟨hfirst, -⟩ := h
  refine ⟨?_, ?_, ?_⟩
  · intro hmem
    simp only [List.mem_cons, List.not_mem_nil, or_false] at hmem
    rcases hmem with rfl | rfl | rfl | rfl | rfl <;> simp [isAsciiLetter] at hfirst
  · rintro rfl
    simp [isAsciiLetter] at hfirst
  · by_contra hdigit
    have hrange : 48 ≤ c.toNat ∧ c.toNat ≤ 57 := by
      simpa [Char.isDigit, UInt32.le_iff_toNat_le] using hdigit
    have hletter : isAsciiLetter c =
        (decide (65 ≤ c.val ∧ c.val ≤ 90) || decide (97 ≤ c.val) && decide (c.val ≤ 122)) := rfl
    simp only [hletter, Bool.or_eq_true, Bool.and_eq_true, decide_eq_true_eq, beq_iff_eq,
      UInt32.le_iff_toNat_le] at hfirst
    rcases hfirst with (⟨hlow, -⟩ | ⟨hlow, -⟩) | rfl
    · change 65 ≤ c.toNat at hlow
      omega
    · change 97 ≤ c.toNat at hlow
      omega
    · simp at hrange

/-- A text that begins with a name is read as one. -/
theorem operand_of_name {name : List Char} (h : NameText name) (rest : List Char) :
    operand inner (name ++ rest) = bare (name ++ rest) := by
  cases name with
  | nil => cases h
  | cons c cs =>
      obtain ⟨hmark, hnumber⟩ := h.not_marks
      rw [List.cons_append, operand_of_ne hmark, number?_eq_none hnumber]

theorem reads_command (hinner : Reads PipelineText inner) : Reads CommandText (command inner) := by
  intro cs rest c h
  simp only [command] at h
  split at h
  · next name after hname =>
      obtain ⟨htext, hnameText⟩ := name?_eq_some hname
      split at h
      · next hfree =>
          obtain ⟨os, hos, rfl⟩ := map_eq_read h
          obtain ⟨text, hafter, hoperands⟩ := reads_arguments hinner _ hos
          refine ⟨_, ?_, .call ⟨hnameText, keyword?_eq_none.mp hfree⟩ hoperands⟩
          rw [htext, hafter, List.append_assoc]
      · next v hv =>
          -- the operand is the keyword and no longer or shorter name
          obtain ⟨o, ho, rfl⟩ := map_eq_read h
          have hkeyword := keyword?_eq_some.mp hv
          rw [htext, operand_of_name hnameText, ← htext] at ho
          simp only [bare, hname, hv] at ho
          obtain ⟨rfl, rfl⟩ := Reading.read.inj ho
          refine ⟨_, htext, .operand (.keyword hkeyword) ?_⟩
          rw [String.ofList_toList]
          exact fun hfree ↦ hfree.2 v hkeyword
  · next hname =>
      obtain ⟨o, ho, rfl⟩ := map_eq_read h
      obtain ⟨text, htext, hoperand⟩ := reads_operand hinner ho
      refine ⟨text, htext, .operand hoperand ?_⟩
      rintro ⟨hfree, -⟩
      rw [String.toList_ofList] at hfree
      cases hfree with
      | mk first more =>
          rw [htext, List.cons_append, name?, if_pos first] at hname
          cases hname

theorem reads_joined (hinner : Reads PipelineText inner) : Reads PipelineText (joined inner) := by
  have hstages : ∀ fuel {c : Command} {piece cs rest : List Char} {p : List Command},
      CommandText piece c → stages inner fuel cs = .read p rest →
      ∃ text, piece ++ cs = text ++ rest ∧ PipelineText text (c :: p) := by
    intro fuel
    induction fuel with
    | zero =>
        intro c piece cs rest p hc h
        obtain ⟨rfl, rfl⟩ := Reading.read.inj h
        exact ⟨piece, rfl, .single hc⟩
    | succ fuel ih =>
        intro c piece cs rest p hc h
        simp only [stages] at h
        split at h
        · next after hbar =>
            split at h
            · next c' rest' hc' =>
                split at h
                · next hmore =>
                    obtain ⟨rfl, rfl⟩ := Reading.read.inj h
                    obtain ⟨before, hbefore, hcs⟩ := skipGap_eq cs
                    obtain ⟨behind, hbehind, hafter⟩ := skipGap_eq after
                    obtain ⟨piece', htext', hcommand⟩ := reads_command hinner hc'
                    obtain ⟨text, htext, hpipeline⟩ := ih hcommand hmore
                    refine ⟨_, ?_, .cons hc hbefore hbehind hpipeline⟩
                    rw [hcs, hbar, hafter, htext', htext]
                    simp
                · cases h
                · cases h
            · obtain ⟨rfl, rfl⟩ := Reading.read.inj h
              exact ⟨piece, rfl, .single hc⟩
            · cases h
        · obtain ⟨rfl, rfl⟩ := Reading.read.inj h
          exact ⟨piece, rfl, .single hc⟩
  intro cs rest p h
  simp only [joined] at h
  split at h
  · next c after hc =>
      obtain ⟨more, hmore, rfl⟩ := map_eq_read h
      obtain ⟨piece, rfl, hcommand⟩ := reads_command hinner hc
      exact hstages _ hcommand hmore
  · cases h
  · cases h

end

theorem reads_pipeline (depth : Nat) : Reads PipelineText (pipeline depth) := by
  -- what stands in parentheses is read one level deeper
  induction depth with
  | zero => intro cs rest p h; cases h
  | succ depth ih => exact reads_joined ih

end Action

end PagedReport
