import PagedReport.Text.Blank
import Mathlib.Data.List.TakeWhile

/-!
# Trimming

Trimming removes blanks from the two ends of a text and nothing else.
-/

namespace PagedReport

theorem trimLeft_eq (cs : List Char) :
    ∃ before, (∀ c ∈ before, isBlank c = true) ∧ cs = before ++ trimLeft cs :=
  ⟨cs.takeWhile isBlank, fun _ hc ↦ List.mem_takeWhile_imp hc,
    List.takeWhile_append_dropWhile.symm⟩

theorem trimRight_eq (cs : List Char) :
    ∃ behind, (∀ c ∈ behind, isBlank c = true) ∧ cs = trimRight cs ++ behind := by
  refine ⟨(cs.reverse.takeWhile isBlank).reverse, fun c hc ↦ ?_, ?_⟩
  · exact List.mem_takeWhile_imp (List.mem_reverse.mp hc)
  · rw [trimRight, ← List.reverse_append, List.takeWhile_append_dropWhile, List.reverse_reverse]

/-- A text is its trimmed form between blanks. -/
theorem trimBoth_eq (cs : List Char) :
    ∃ before behind, (∀ c ∈ before, isBlank c = true) ∧ (∀ c ∈ behind, isBlank c = true) ∧
      cs = before ++ trimBoth cs ++ behind := by
  obtain ⟨before, hbefore, hleft⟩ := trimLeft_eq cs
  obtain ⟨behind, hbehind, hright⟩ := trimRight_eq (trimLeft cs)
  refine ⟨before, behind, hbefore, hbehind, ?_⟩
  rw [trimBoth, List.append_assoc, ← hright]
  exact hleft

/-- A text that begins with something other than a blank begins with it trimmed as well. -/
theorem trimBoth_cons {c : Char} (hc : isBlank c = false) (cs : List Char) :
    ∃ ds, trimBoth (c :: cs) = c :: ds ∧ ds <+: cs := by
  obtain ⟨before, behind, hbefore, hbehind, heq⟩ := trimBoth_eq (c :: cs)
  cases before with
  | cons b before =>
      obtain ⟨rfl, -⟩ := List.cons.inj heq
      simp [hc] at hbefore
  | nil =>
      cases htrim : trimBoth (c :: cs) with
      | nil =>
          rw [htrim, List.nil_append, List.nil_append] at heq
          simp [← heq, hc] at hbehind
      | cons d ds =>
          rw [htrim] at heq
          obtain ⟨rfl, rfl⟩ := List.cons.inj heq
          exact ⟨ds, rfl, behind, rfl⟩

theorem trimBoth_eq_self {cs : List Char} (hhead : ∀ c ∈ cs.head?, isBlank c = false)
    (hlast : ∀ c ∈ cs.getLast?, isBlank c = false) : trimBoth cs = cs := by
  have drop {ds : List Char} (h : ∀ c ∈ ds.head?, isBlank c = false) :
      ds.dropWhile isBlank = ds := by
    cases ds with
    | nil => rfl
    | cons d ds => rw [List.dropWhile_cons_of_neg]; simpa using h d rfl
  rw [trimBoth, trimLeft, drop hhead, trimRight, drop, List.reverse_reverse]
  rwa [List.head?_reverse]

/-- Blanks behind a text are trimmed with those at its end. -/
theorem trimRight_append {cs ds : List Char} (h : ∀ c ∈ ds, isBlank c = true) :
    trimRight (cs ++ ds) = trimRight cs := by
  rw [trimRight, List.reverse_append, List.dropWhile_append_of_pos (by simpa using h), trimRight]

/-- Blanks beside a text are trimmed with those at its ends. -/
theorem trimBoth_append {before behind : List Char} (hbefore : ∀ c ∈ before, isBlank c = true)
    (cs : List Char) (hbehind : ∀ c ∈ behind, isBlank c = true) :
    trimBoth (before ++ cs ++ behind) = trimBoth cs := by
  rw [trimBoth, trimBoth, trimLeft, trimLeft, List.append_assoc,
    List.dropWhile_append_of_pos hbefore, List.dropWhile_append]
  split
  · next hempty =>
      have hnil : behind.dropWhile isBlank = [] := List.dropWhile_eq_nil_iff.mpr hbehind
      rw [List.isEmpty_iff.mp hempty, hnil]
  · exact trimRight_append hbehind

/-- Blanks beside a text that has none are all that trimming takes. -/
theorem trimBoth_between {before cs behind : List Char} (hbefore : ∀ c ∈ before, isBlank c = true)
    (hcs : ∀ c ∈ cs, isBlank c = false) (hbehind : ∀ c ∈ behind, isBlank c = true) :
    trimBoth (before ++ cs ++ behind) = cs := by
  rw [trimBoth_append hbefore cs hbehind]
  exact trimBoth_eq_self (fun c hc ↦ hcs c (List.mem_of_mem_head? hc))
    fun c hc ↦ hcs c (List.mem_of_getLast? hc)

/-- What is trimmed has no blanks left at its ends. -/
theorem trimBoth_trimBoth (cs : List Char) : trimBoth (trimBoth cs) = trimBoth cs := by
  have hstart (ds : List Char) : ∀ c ∈ (ds.dropWhile isBlank).head?, isBlank c = false := by
    intro c hc
    have hnot := List.head?_dropWhile_not isBlank ds
    rw [Option.mem_def.mp hc] at hnot
    simpa using hnot
  refine trimBoth_eq_self (fun c hc ↦ hstart cs c ?_) fun c hc ↦ ?_
  · obtain ⟨behind, -, heq⟩ := trimRight_eq (trimLeft cs)
    change c ∈ (trimRight (trimLeft cs)).head? at hc
    change c ∈ (trimLeft cs).head?
    rw [heq, List.head?_append, Option.mem_def.mp hc]
    rfl
  · rw [trimBoth, trimRight, List.getLast?_reverse] at hc
    exact hstart _ c hc

theorem trimRight_of_forall {cs : List Char} (h : ∀ c ∈ cs, isBlank c = true) :
    trimRight cs = [] :=
  @trimRight_append [] cs h

/-- Trimming stops at a text that is not blank. -/
theorem trimRight_append_of_not {cs ds : List Char} (h : ¬∀ c ∈ ds, isBlank c = true) :
    trimRight (cs ++ ds) = cs ++ trimRight ds := by
  have hne : (ds.reverse.dropWhile isBlank).isEmpty = false := by simpa using h
  rw [trimRight, List.reverse_append, List.dropWhile_append, hne, trimRight]
  simp

/-- All characters with the property White_Space. -/
def blanks : List Char :=
  [0x09, 0x0A, 0x0B, 0x0C, 0x0D, 0x20, 0x85, 0xA0, 0x1680, 0x2000, 0x2001, 0x2002, 0x2003, 0x2004,
    0x2005, 0x2006, 0x2007, 0x2008, 0x2009, 0x200A, 0x2028, 0x2029, 0x202F, 0x205F, 0x3000].map
    Char.ofNat

theorem mem_blanks {c : Char} (h : isBlank c = true) : c ∈ blanks := by
  rw [blanks, List.mem_map]
  refine ⟨c.toNat, ?_, Char.ofNat_toNat c⟩
  simp only [isBlank, Bool.or_eq_true, Bool.and_eq_true, beq_iff_eq, decide_eq_true_eq] at h
  simp only [List.mem_cons, List.not_mem_nil, or_false]
  omega

end PagedReport
