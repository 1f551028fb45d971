import PagedReport.Proofs.Placeholder.Scanning
import PagedReport.Proofs.Text.Trimming

/-!
# What reading an action consumes

Every reader takes a piece off the front of its text: something that a scan for the closing mark
passes, and that does not end with a dash.  So an action keeps its closing mark whatever its strings
hold, and a mark for trimming behind it is not taken for a part of it.
-/

namespace PagedReport

namespace Action

open Fragment

/-- A run of characters that a scan passes outside of strings, at both its ends, and that does not
end with a dash. -/
structure Piece (cs : List Char) : Prop where
  passes : Passes .action cs .action
  last : cs.getLast? ≠ some '-'

namespace Piece

theorem nil : Piece [] := ⟨.nil _, by simp⟩

theorem append {cs ds : List Char} (h : Piece cs) (hd : Piece ds) : Piece (cs ++ ds) := by
  refine ⟨h.passes.trans hd.passes, ?_⟩
  rw [List.getLast?_append]
  cases hlast : ds.getLast? with
  | none => simpa using h.last
  | some c => simpa [hlast] using hd.last

/-- Plain characters before a piece that is not empty may hold dashes. -/
theorem plain_append {cs ds : List Char} (h : ∀ c ∈ cs, Plain c) (hd : Piece ds) (hne : ds ≠ []) :
    Piece (cs ++ ds) := by
  refine ⟨(passes_of_plain h).trans hd.passes, ?_⟩
  rw [List.getLast?_append, List.getLast?_eq_some_getLast hne]
  simpa [List.getLast?_eq_some_getLast hne] using hd.last

theorem of_forall {cs : List Char} (h : ∀ c ∈ cs, Plain c ∧ c ≠ '-') : Piece cs :=
  ⟨passes_of_plain fun c hc ↦ (h c hc).1, fun hlast ↦ (h _ (List.mem_of_getLast? hlast)).2 rfl⟩

end Piece

/-- A class of characters without quotes, backticks, closing braces and dashes. -/
def Inner (p : Char → Bool) : Prop := p '"' = false ∧ p '`' = false ∧ p '}' = false ∧ p '-' = false

instance (p : Char → Bool) : Decidable (Inner p) := inferInstanceAs (Decidable (_ ∧ _ ∧ _ ∧ _))

theorem Inner.plain {p : Char → Bool} (h : Inner p) {c : Char} (hc : p c = true) :
    Plain c ∧ c ≠ '-' := by
  obtain ⟨hq, hb, hclose, hdash⟩ := h
  refine ⟨⟨?_, ?_, ?_⟩, ?_⟩ <;> rintro rfl <;> simp_all

theorem Inner.piece {p : Char → Bool} (h : Inner p) {cs : List Char} (hcs : ∀ c ∈ cs, p c = true) :
    Piece cs :=
  .of_forall fun c hc ↦ h.plain (hcs c hc)

theorem inner_isGap : Inner isGap := by decide

theorem inner_isDigit : Inner Char.isDigit := by decide

theorem inner_isBlank : Inner isBlank := by decide

theorem inner_continuesName : Inner continuesName := by decide

/-- What is left of a text when a piece is taken off its front. -/
def Leaves (cs rest : List Char) : Prop := ∃ piece, Piece piece ∧ cs = piece ++ rest

namespace Leaves

theorem refl (cs : List Char) : Leaves cs cs := ⟨[], .nil, rfl⟩

theorem trans {cs ds es : List Char} (h : Leaves cs ds) (hd : Leaves ds es) : Leaves cs es := by
  obtain ⟨p, hp, rfl⟩ := h
  obtain ⟨q, hq, rfl⟩ := hd
  exact ⟨p ++ q, hp.append hq, by simp⟩

theorem cons {c : Char} {cs rest : List Char} (hc : Plain c ∧ c ≠ '-') (h : Leaves cs rest) :
    Leaves (c :: cs) rest :=
  trans ⟨[c], .of_forall (by simpa using hc), rfl⟩ h

theorem dropWhile {p : Char → Bool} (hp : Inner p) (cs : List Char) : Leaves cs (cs.dropWhile p) :=
  ⟨cs.takeWhile p, hp.piece fun _ hc ↦ List.mem_takeWhile_imp hc,
    List.takeWhile_append_dropWhile.symm⟩

end Leaves

theorem leaves_skipGap (cs : List Char) : Leaves cs (skipGap cs) := .dropWhile inner_isGap cs

/-! ## Names and numbers -/

theorem leaves_name? {cs rest : List Char} {name : String} (h : name? cs = some (name, rest)) :
    Leaves cs rest := by
  cases cs with
  | nil => simp [name?] at h
  | cons c cs =>
      simp only [name?] at h
      split at h
      · next hc =>
          obtain ⟨-, rfl⟩ := Prod.mk.inj (Option.some.inj h)
          refine .cons ?_ (.dropWhile inner_continuesName cs)
          have hname : Inner fun c ↦ isAsciiLetter c || c == '_' := by decide
          exact hname.plain hc
      · simp at h

theorem digits?_eq_some {cs ds rest : List Char} (h : digits? cs = some (ds, rest)) :
    cs = ds ++ rest ∧ ds ≠ [] ∧ ∀ c ∈ ds, c.isDigit = true := by
  simp only [digits?] at h
  split at h
  · simp at h
  · next hds =>
      obtain ⟨rfl, rfl⟩ := Prod.mk.inj (Option.some.inj h)
      exact ⟨(List.prefix_iff_eq_append.mp (List.takeWhile_prefix _)).symm, by simpa using hds,
        fun c hc ↦ List.mem_takeWhile_imp hc⟩

theorem leaves_digits? {cs ds rest : List Char} (h : digits? cs = some (ds, rest)) :
    Leaves cs rest := by
  obtain ⟨rfl, -, hds⟩ := digits?_eq_some h
  exact ⟨ds, inner_isDigit.piece hds, rfl⟩

theorem leaves_fraction (cs : List Char) : Leaves cs (fraction cs).2 := by
  unfold fraction
  split
  · next cs =>
      cases hd : digits? cs with
      | none => exact .refl _
      | some r => exact .cons (by decide) (leaves_digits? hd)
  · exact .refl _

/-- A sign before digits, whatever it is, does not end the piece. -/
theorem leaves_signed {p : Char → Bool} (hp : ∀ c, p c = true → Plain c) {cs ds rest : List Char}
    (h : digits? (cs.drop (cs.take 1 |>.filter p).length) = some (ds, rest)) :
    Leaves cs rest := by
  obtain ⟨heq, hne, hds⟩ := digits?_eq_some h
  have hpiece := inner_isDigit.piece hds
  cases cs with
  | nil => simp [digits?] at h
  | cons c cs =>
      by_cases hc : p c = true
      · have heq : cs = ds ++ rest := by simpa [hc] using heq
        exact ⟨[c] ++ ds, .plain_append (by simpa using hp c hc) hpiece hne, by simp [heq]⟩
      · have heq : c :: cs = ds ++ rest := by simpa [hc] using heq
        exact ⟨ds, hpiece, heq⟩

theorem leaves_exponent (cs : List Char) : Leaves cs (exponent cs).2 := by
  unfold exponent
  split
  · exact .refl _
  · next c cs =>
      simp only
      split
      · next hc =>
          split
          · next hd =>
              refine .cons ?_ (leaves_signed (p := fun s ↦ s == '+' || s == '-') ?_ hd)
              · have he : Inner fun c ↦ c == 'e' || c == 'E' := by decide
                exact he.plain hc
              · intro s hs
                rcases (by simpa using hs : s = '+' ∨ s = '-') with rfl | rfl <;> decide
          · exact .refl _
      · exact .refl _

theorem leaves_number? {cs rest : List Char} {v : Value} (h : number? cs = some (v, rest)) :
    Leaves cs rest := by
  simp only [number?] at h
  split at h
  · simp at h
  · next ds after hd =>
      obtain ⟨-, rfl⟩ := Prod.mk.inj (Option.some.inj h)
      have hsign : Leaves cs after := by
        refine leaves_signed (p := (· == '-')) (fun c hc ↦ ?_) hd
        rw [beq_iff_eq.mp hc]
        decide
      exact hsign.trans ((leaves_fraction _).trans (leaves_exponent _))

theorem leaves_segments (fuel : Nat) (cs : List Char) : Leaves cs (segments fuel cs).2 := by
  induction fuel generalizing cs with
  | zero => exact .refl _
  | succ fuel ih =>
      unfold segments
      split
      · next heq => simp at heq
      · next n cs heq =>
          obtain rfl := Nat.succ.inj heq
          split
          · next hname => exact .cons (by decide) ((leaves_name? hname).trans (ih _))
          · exact .refl _
      · exact .refl _

/-! ## Strings -/

theorem quoted_eq_read {opening acc cs rest : List Char} {v : Value}
    (h : quoted opening acc cs = .read v rest) :
    ∃ inside, Passes .quotes inside .quotes ∧ cs = inside ++ '"' :: rest := by
  have escaped {c : Char} {ds : List Char} : Passes .quotes ds .quotes →
      Passes .quotes ('\\' :: c :: ds) .quotes := fun hd ↦
    .cons (by simp) (.cons (by simp [Inside.after]) hd)
  fun_induction quoted opening acc cs with
  | case1 => simp at h
  | case2 acc cs =>
      obtain ⟨-, rfl⟩ := Reading.read.inj h
      exact ⟨[], .nil _, rfl⟩
  | case3 acc cs ih | case4 acc cs ih | case5 acc cs ih | case6 acc cs ih =>
      obtain ⟨inside, hpass, rfl⟩ := ih h
      exact ⟨_, escaped hpass, rfl⟩
  | case7 => simp at h
  | case8 acc c cs hquote _ _ _ _ hslash ih =>
      obtain ⟨inside, hpass, rfl⟩ := ih h
      refine ⟨c :: inside, .cons (by simp) ?_, rfl⟩
      rw [Inside.after, if_neg (by simpa using hquote), if_neg (by simpa using hslash)]
      exact hpass

theorem piece_quoted {inside : List Char} (h : Passes .quotes inside .quotes) :
    Piece ('"' :: inside ++ ['"']) := by
  refine ⟨.cons (by simp) (h.trans (.cons (by simp) (.nil _))), ?_⟩
  rw [List.getLast?_concat]
  decide

theorem piece_backticks {inside : List Char} (h : ∀ c ∈ inside, c ≠ '`') :
    Piece ('`' :: inside ++ ['`']) := by
  refine ⟨.cons (by simp) ((passes_backticks h).trans (.cons (by simp) (.nil _))), ?_⟩
  rw [List.getLast?_concat]
  decide

/-! ## Operands, commands and pipelines -/

theorem map_eq_read {α β : Type} {f : α → β} {r : Reading α} {b : β} {rest : List Char}
    (h : r.map f = .read b rest) : ∃ a, r = .read a rest ∧ f a = b := by
  cases r with
  | read a rest' =>
      obtain ⟨rfl, rfl⟩ := Reading.read.inj h
      exact ⟨a, rfl, rfl⟩
  | other e => simp [Reading.map] at h
  | failed e => simp [Reading.map] at h

/-- A reader that takes a piece off the front of what it reads. -/
def Takes {α : Type} (read : List Char → Reading α) : Prop :=
  ∀ {cs rest : List Char} {a : α}, read cs = .read a rest → Leaves cs rest

theorem takes_bare : Takes bare := by
  intro cs rest o h
  simp only [bare] at h
  split at h
  · simp at h
  · next hname =>
      split at h <;> obtain ⟨-, rfl⟩ := Reading.read.inj h <;> exact leaves_name? hname

section

variable {inner : List Char → Reading Pipeline}

theorem takes_parenthesised (hinner : Takes inner) (opening : List Char) :
    Takes (parenthesised inner opening) := by
  intro cs rest o h
  simp only [parenthesised] at h
  split at h
  · next p after hp =>
      split at h
      · next rest' hclose =>
          obtain ⟨-, rfl⟩ := Reading.read.inj h
          refine (leaves_skipGap cs).trans ((hinner hp).trans ((leaves_skipGap after).trans ?_))
          rw [hclose]
          exact .cons (by decide) (.refl _)
      · simp at h
  · simp at h
  · simp at h

theorem takes_operand (hinner : Takes inner) : Takes (operand inner) := by
  intro cs rest o h
  unfold operand at h
  split at h
  · next cs =>
      obtain ⟨v, hv, -⟩ := map_eq_read h
      obtain ⟨inside, hpass, rfl⟩ := quoted_eq_read hv
      exact ⟨_, piece_quoted hpass, by simp⟩
  · next cs =>
      split at h
      · next c after hafter =>
          obtain ⟨-, rfl⟩ := Reading.read.inj h
          have hc : c = '`' := by simpa [hafter] using List.head?_dropWhile_not (· != '`') cs
          have hcs := List.takeWhile_append_dropWhile (p := (· != '`')) (l := cs)
          rw [hafter, hc] at hcs
          have hinside : ∀ c ∈ cs.takeWhile (· != '`'), c ≠ '`' := by
            intro c hc
            simpa using List.mem_takeWhile_imp hc
          exact ⟨_, piece_backticks hinside, by simpa using hcs.symm⟩
      · simp at h
  · obtain ⟨-, rfl⟩ := Reading.read.inj h
    exact .cons (by decide) (leaves_segments _ _)
  · next cs =>
      have hseg := leaves_segments ('.' :: cs).length ('.' :: cs)
      split at h
      · obtain ⟨-, rfl⟩ := Reading.read.inj h
        exact .cons (by decide) (.refl _)
      · next path after _ heq =>
          obtain ⟨-, rfl⟩ := Reading.read.inj h
          rwa [heq] at hseg
  · exact .cons (by decide) (takes_parenthesised hinner _ h)
  · split at h
    · next hnumber =>
        obtain ⟨-, rfl⟩ := Reading.read.inj h
        exact leaves_number? hnumber
    · exact takes_bare h

theorem takes_arguments (hinner : Takes inner) (fuel : Nat) : Takes (arguments inner fuel) := by
  induction fuel with
  | zero =>
      intro cs rest os h
      obtain ⟨-, rfl⟩ := Reading.read.inj h
      exact .refl _
  | succ fuel ih =>
      intro cs rest os h
      simp only [arguments] at h
      split at h
      · obtain ⟨-, rfl⟩ := Reading.read.inj h
        exact .refl _
      · split at h
        · next o after ho =>
            refine (leaves_skipGap cs).trans ((takes_operand hinner ho).trans ?_)
            split at h
            · next hmore =>
                obtain ⟨-, rfl⟩ := Reading.read.inj h
                exact ih hmore
            · simp at h
            · simp at h
        · obtain ⟨-, rfl⟩ := Reading.read.inj h
          exact .refl _
        · simp at h

theorem takes_command (hinner : Takes inner) : Takes (command inner) := by
  intro cs rest c h
  simp only [command] at h
  split at h
  · next hname =>
      split at h
      · obtain ⟨os, hos, -⟩ := map_eq_read h
        exact (leaves_name? hname).trans (takes_arguments hinner _ hos)
      · obtain ⟨o, ho, -⟩ := map_eq_read h
        exact takes_operand hinner ho
  · obtain ⟨o, ho, -⟩ := map_eq_read h
    exact takes_operand hinner ho

theorem takes_stages (hinner : Takes inner) (fuel : Nat) : Takes (stages inner fuel) := by
  induction fuel with
  | zero =>
      intro cs rest p h
      obtain ⟨-, rfl⟩ := Reading.read.inj h
      exact .refl _
  | succ fuel ih =>
      intro cs rest p h
      simp only [stages] at h
      split at h
      · next after hbar =>
          split at h
          · next c rest' hc =>
              have hstage : Leaves cs rest' := by
                refine (leaves_skipGap cs).trans ?_
                rw [hbar]
                exact .cons (by decide) ((leaves_skipGap after).trans (takes_command hinner hc))
              refine hstage.trans ?_
              split at h
              · next hmore =>
                  obtain ⟨-, rfl⟩ := Reading.read.inj h
                  exact ih hmore
              · simp at h
              · simp at h
          · obtain ⟨-, rfl⟩ := Reading.read.inj h
            exact .refl _
          · simp at h
      · obtain ⟨-, rfl⟩ := Reading.read.inj h
        exact .refl _

theorem takes_joined (hinner : Takes inner) : Takes (joined inner) := by
  intro cs rest p h
  simp only [joined] at h
  split at h
  · next hc =>
      obtain ⟨more, hmore, -⟩ := map_eq_read h
      exact (takes_command hinner hc).trans (takes_stages hinner _ hmore)
  · simp at h
  · simp at h

end

theorem takes_pipeline (depth : Nat) : Takes (pipeline depth) := by
  -- what stands in parentheses is read one level deeper
  induction depth with
  | zero => intro cs rest p h; simp [pipeline] at h
  | succ depth ih => exact takes_joined ih

/-! ## Whole actions -/

theorem pipeline_of_read {s : String} {p : Pipeline} (h : read s = .ok p) :
    ∃ depth, pipeline depth (trimBoth s.toList) = .read p [] := by
  simp only [read] at h
  split at h
  · next q heq => exact ⟨_, by rwa [Except.ok.inj h] at heq⟩
  all_goals simp at h

/-- An action with the blanks around it is a piece. -/
theorem piece_of_read {s : String} {p : Pipeline} (h : read s = .ok p) : Piece s.toList := by
  obtain ⟨depth, hp⟩ := pipeline_of_read h
  obtain ⟨piece, hpiece, heq⟩ := takes_pipeline depth hp
  obtain ⟨before, behind, hbefore, hbehind, htext⟩ := trimBoth_eq s.toList
  rw [htext, heq, List.append_nil]
  exact ((inner_isBlank.piece hbefore).append hpiece).append (inner_isBlank.piece hbehind)

/-- Texts that begin with neither a name nor a number nor one of the marks of operands. -/
theorem pipeline_ne_read {cs : List Char} (hname : name? cs = none) (hnumber : number? cs = none)
    (hhead : ∀ c ∈ cs.head?, c ∉ ['"', '`', '$', '.', '(']) (depth : Nat) (p : Pipeline)
    (rest : List Char) : pipeline depth cs ≠ .read p rest := by
  cases depth with
  | zero => simp [pipeline]
  | succ depth =>
      have hoperand : operand (pipeline depth) cs = .other (.noOperand cs) := by
        unfold operand
        split <;> simp_all [bare]
      simp [pipeline, joined, command, hname, hoperand, Reading.map]

/-- An action that begins with a dash goes on with a digit. -/
theorem digit_of_read {s : String} {p : Pipeline} {cs : List Char} (h : read s = .ok p)
    (hs : s.toList = '-' :: cs) : ∃ d ds, cs = d :: ds ∧ d.isDigit = true := by
  obtain ⟨depth, hp⟩ := pipeline_of_read h
  obtain ⟨ds, htrim, behind, rfl⟩ := trimBoth_cons (c := '-') (by decide) cs
  rw [hs, htrim] at hp
  cases hdigits : digits? ds with
  | none =>
      have hnumber : number? ('-' :: ds) = none := by simp [number?, hdigits]
      exact absurd hp (pipeline_ne_read (by simp [name?, isAsciiLetter]) hnumber (by simp) _ _ _)
  | some r =>
      obtain ⟨ns, rest⟩ := r
      obtain ⟨heq, hne, hall⟩ := digits?_eq_some hdigits
      obtain ⟨d, es, hns⟩ := List.exists_cons_of_ne_nil hne
      exact ⟨d, es ++ rest ++ behind, by simp [heq, hns], hall d (by simp [hns])⟩

theorem not_isComment_of_read {s : String} {p : Pipeline} (h : read s = .ok p) :
    isComment s.toList = false := by
  obtain ⟨depth, hp⟩ := pipeline_of_read h
  simp only [isComment]
  split
  · next hslash _ =>
      rw [hslash] at hp
      exact absurd hp (pipeline_ne_read (by simp [name?, isAsciiLetter])
        (by simp [number?, digits?]) (by simp) _ _ _)
  · rfl

end Action

end PagedReport
