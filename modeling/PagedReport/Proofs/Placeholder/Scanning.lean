import PagedReport.Placeholder.Fragment

/-!
# Scanning for closing marks

The scan for the end of an action knows nothing of actions but where their strings begin and end.
`Passes` follows it over a run of characters.  Reading consumes pieces over which the scan passes,
so the scan stops at the closing mark behind an action and not before.
-/

namespace PagedReport

namespace Fragment

/-- Where a scan stands after a character that does not close. -/
def Inside.after : Inside → Char → Inside
  | .action, c => if c == '"' then .quotes else if c == '`' then .backticks else .action
  | .quotes, c => if c == '"' then .action else if c == '\\' then .escape else .quotes
  | .escape, _ => .quotes
  | .backticks, c => if c == '`' then .action else .backticks

theorem findClose_cons {i : Inside} {c : Char} {cs : List Char}
    (h : i = .action → c = '}' → ∀ ds, cs ≠ '}' :: ds) :
    findClose i (c :: cs) = (findClose (i.after c) cs).map fun r ↦ (c :: r.1, r.2) := by
  have hclose : ∀ ds : List Char, i = .action → c = '}' → cs = '}' :: ds → False :=
    fun ds hi hc ↦ h hi hc ds
  have hmap : ∀ {next : Option (List Char × List Char)}, findClose (i.after c) cs = next →
      next.map (fun r ↦ (c :: r.1, r.2)) =
        (findClose (i.after c) cs).map fun r ↦ (c :: r.1, r.2) := fun hnext ↦ by rw [hnext]
  cases i with
  | action =>
      rw [findClose.eq_3 c cs hclose]
      split <;> next hnext => exact hmap hnext
  | quotes =>
      rw [findClose.eq_4 c cs hclose]
      split <;> next hnext => exact hmap hnext
  | escape =>
      rw [findClose.eq_5 c cs hclose]
      split <;> next hnext => exact hmap hnext
  | backticks =>
      rw [findClose.eq_6 c cs hclose]
      split <;> next hnext => exact hmap hnext

/-- A scan that stands at the first place goes over the characters without closing and then stands
at the second. -/
inductive Passes : Inside → List Char → Inside → Prop
  | nil (i : Inside) : Passes i [] i
  | cons {i j : Inside} {c : Char} {cs : List Char} (hc : i = .action → c ≠ '}')
      (h : Passes (i.after c) cs j) : Passes i (c :: cs) j

theorem Passes.trans {i j k : Inside} {cs ds : List Char} (h : Passes i cs j)
    (hd : Passes j ds k) : Passes i (cs ++ ds) k := by
  induction h with
  | nil i => exact hd
  | cons hc _ ih => exact .cons hc (ih hd)

theorem findClose_append {i j : Inside} {cs : List Char} (h : Passes i cs j) (rest : List Char) :
    findClose i (cs ++ rest) = (findClose j rest).map fun r ↦ (cs ++ r.1, r.2) := by
  induction h with
  | nil i => simp
  | cons hc _ ih =>
      rw [List.cons_append, findClose_cons fun hi h ↦ absurd h (hc hi), ih, Option.map_map]
      rfl

/-- Over an action that it passes, a scan stops at the closing mark behind it. -/
theorem findClose_of_passes {cs : List Char} (h : Passes .action cs .action) (rest : List Char) :
    findClose .action (cs ++ '}' :: '}' :: rest) = some (cs, rest) := by
  rw [findClose_append h, findClose]
  simp

/-- Characters that mean nothing to a scan. -/
def Plain (c : Char) : Prop := c ≠ '"' ∧ c ≠ '`' ∧ c ≠ '}'

instance (c : Char) : Decidable (Plain c) := inferInstanceAs (Decidable (_ ∧ _ ∧ _))

theorem passes_of_plain {cs : List Char} (h : ∀ c ∈ cs, Plain c) : Passes .action cs .action := by
  induction cs with
  | nil => exact .nil _
  | cons c cs ih =>
      obtain ⟨hq, hb, hclose⟩ := h c (by simp)
      refine .cons (fun _ ↦ hclose) ?_
      rw [Inside.after, if_neg (by simpa using hq), if_neg (by simpa using hb)]
      exact ih fun d hd ↦ h d (List.mem_cons_of_mem c hd)

theorem passes_backticks {cs : List Char} (h : ∀ c ∈ cs, c ≠ '`') :
    Passes .backticks cs .backticks := by
  induction cs with
  | nil => exact .nil _
  | cons c cs ih =>
      refine .cons (by simp) ?_
      rw [Inside.after, if_neg (by simpa using h c (by simp))]
      exact ih fun d hd ↦ h d (List.mem_cons_of_mem c hd)

end Fragment

end PagedReport
