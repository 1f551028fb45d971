import PagedReport.Canvas.Wrap
import Mathlib.Data.List.Basic

/-!
# What line breaking keeps

Spaces may go and come at the ends of lines, so texts are compared without them.  Apart from spaces
the lines of a text are the text without its newlines and the carriage returns at the ends of
its paragraphs.
-/

namespace PagedReport

def unspaced (cs : List Char) : List Char := cs.filter (· ≠ ' ')

@[simp] theorem unspaced_nil : unspaced [] = [] := rfl

@[simp] theorem unspaced_append (cs ds : List Char) :
    unspaced (cs ++ ds) = unspaced cs ++ unspaced ds := List.filter_append ..

@[simp] theorem unspaced_space (cs : List Char) : unspaced (' ' :: cs) = unspaced cs := rfl

namespace Wrap

/-! ## Words and paragraphs -/

theorem splitOn_cons (sep c : Char) (cs : List Char) :
    List.splitOn sep (c :: cs) =
      if c = sep then [] :: List.splitOn sep cs
      else (List.splitOn sep cs).modifyHead (c :: ·) := by
  rw [List.splitOn_eq_splitOnP, List.splitOnP_cons_eq_if_modifyHead, ← List.splitOn_eq_splitOnP]
  simp

theorem flatten_splitOn_cons (sep c : Char) (cs : List Char) :
    (List.splitOn sep (c :: cs)).flatten =
      if c = sep then (List.splitOn sep cs).flatten else c :: (List.splitOn sep cs).flatten := by
  rw [splitOn_cons]
  obtain ⟨p, ps, hps⟩ := List.exists_cons_of_ne_nil (List.splitOn_ne_nil sep cs)
  split <;> simp [hps]

/-- The first piece of a text is empty if the text is empty or starts with the separator. -/
theorem splitOn_head_eq_nil {sep : Char} {cs p : List Char} {ps : List (List Char)}
    (hps : List.splitOn sep cs = p :: ps) : p = [] ↔ cs.head? = none ∨ cs.head? = some sep := by
  cases cs with
  | nil =>
      obtain ⟨rfl, -⟩ : [] = p ∧ [] = ps := by simpa using hps
      simp
  | cons c cs =>
      obtain ⟨q, qs, hqs⟩ := List.exists_cons_of_ne_nil (List.splitOn_ne_nil sep cs)
      rw [splitOn_cons, hqs] at hps
      by_cases hc : c = sep
      · rw [if_pos hc, List.cons.injEq] at hps
        simp [← hps.1, hc]
      · rw [if_neg hc, List.modifyHead_cons, List.cons.injEq] at hps
        simp [← hps.1, hc]

theorem flatten_filter_isEmpty {α : Type} (xs : List (List α)) :
    (xs.filter (!·.isEmpty)).flatten = xs.flatten := by
  induction xs with
  | nil => rfl
  | cons x xs ih => cases x <;> simp [ih]

theorem flatten_words (cs : List Char) : (words cs).flatten = unspaced cs := by
  rw [words, flatten_filter_isEmpty]
  induction cs with
  | nil => rfl
  | cons c cs ih =>
      rw [flatten_splitOn_cons, ih]
      by_cases hc : c = ' ' <;> simp [unspaced, hc]

/-- A text without its newlines, and without a carriage return before a newline or at the end. -/
def unbroken : List Char → List Char
  | [] => []
  | c :: cs =>
      if c = '\n' ∨ c = '\r' ∧ (cs.head? = none ∨ cs.head? = some '\n') then unbroken cs
      else c :: unbroken cs

/-- A paragraph without one carriage return at its end. -/
def chomp (p : List Char) : List Char := if p.getLast? = some '\r' then p.dropLast else p

theorem chomp_cons (c : Char) (p : List Char) :
    chomp (c :: p) = if c = '\r' ∧ p = [] then [] else c :: chomp p := by
  cases p with
  | nil => by_cases hc : c = '\r' <;> simp [chomp, hc]
  | cons d p =>
      simp only [chomp, List.getLast?_cons_cons, List.dropLast_cons_cons, reduceCtorEq, and_false,
        if_false]
      split <;> rfl

theorem flatten_paragraphs (cs : List Char) : (paragraphs cs).flatten = unbroken cs := by
  have hchomp : ∀ cs, paragraphs cs = (List.splitOn '\n' cs).map chomp := fun _ ↦ rfl
  -- whether a character stays depends on whether the paragraph behind it is empty
  induction cs with
  | nil => rfl
  | cons c cs ih =>
      obtain ⟨p, ps, hps⟩ := List.exists_cons_of_ne_nil (List.splitOn_ne_nil '\n' cs)
      rw [hchomp, hps, List.map_cons, List.flatten_cons] at ih
      rw [hchomp, splitOn_cons, hps, unbroken, ← ih]
      simp only [← splitOn_head_eq_nil hps]
      by_cases hc : c = '\n'
      · simp [hc, chomp]
      · by_cases hr : c = '\r' ∧ p = []
        · simp [hr, chomp]
        · simp [hc, hr, chomp_cons]

/-! ## Filling lines -/

section

variable {K : Type} [Scalar K] (max : K) (width : List Char → K)

theorem flatten_cut (current word : List Char) :
    (cut max width current word).1.flatten ++ (cut max width current word).2 = current ++ word := by
  induction word generalizing current with
  | nil => simp [cut]
  | cons c cs ih =>
      rw [cut]
      split
      · simpa using congrArg (current ++ ·) (ih [c])
      · simpa using ih (current ++ [c])

theorem unspaced_addWord (current word : List Char) :
    unspaced ((addWord max width current word).1.flatten ++ (addWord max width current word).2) =
      unspaced (current ++ word) := by
  have hcut := flatten_cut max width [] word
  unfold addWord
  cases current with
  | nil =>
      simp only [List.isEmpty_nil, if_true]
      split
      · simp
      · simpa using congrArg unspaced hcut
  | cons c cs =>
      simp only [List.isEmpty_cons, Bool.false_eq_true, if_false]
      split
      · rw [List.flatten_nil, List.nil_append, unspaced_append, unspaced_append, unspaced_space]
      · split
        · simp
        · simpa using congrArg (fun ds ↦ unspaced (c :: cs ++ ds)) hcut

theorem unspaced_fill (current : List Char) (ws : List (List Char)) :
    unspaced ((fill max width current ws).1.flatten ++ (fill max width current ws).2) =
      unspaced (current ++ ws.flatten) := by
  -- `current` is the line begun by the words before
  induction ws generalizing current with
  | nil => simp [fill]
  | cons w ws ih =>
      have hword := unspaced_addWord max width current w
      have hrest := ih (addWord max width current w).2
      simp only [unspaced_append] at hword hrest
      simp only [fill, List.flatten_append, List.flatten_cons, unspaced_append, List.append_assoc]
      rw [hrest, ← List.append_assoc, hword, List.append_assoc]

theorem unspaced_paragraphLines (p : List Char) :
    unspaced ((paragraphLines max width p).flatMap (·.text)) = unspaced p := by
  unfold paragraphLines
  split
  · simp
  · have hfill := unspaced_fill max width [] (words p)
    rw [List.nil_append, flatten_words] at hfill
    have hidem : unspaced (unspaced p) = unspaced p := by simp [unspaced]
    rw [hidem] at hfill
    simpa [List.flatMap_map, List.flatMap_id'] using hfill

/-- The lines of a text hold the text without its breaks, spaces apart. -/
theorem unspaced_lines (cs : List Char) :
    unspaced ((lines max width cs).flatMap (·.text)) = unspaced (unbroken cs) := by
  rw [← flatten_paragraphs, lines, List.flatMap_assoc]
  induction paragraphs cs with
  | nil => rfl
  | cons p ps ih => simp [unspaced_paragraphLines, ih]

end

/-! ## Other measures -/

section

variable {K : Type} [Scalar K] {max max' : K} {width width' : List Char → K}
  (hover : ∀ cs, max' < width' cs ↔ max < width cs)

include hover

theorem cut_congr (current word : List Char) :
    cut max' width' current word = cut max width current word := by
  induction word generalizing current with
  | nil => rfl
  | cons c word ih => simp only [cut, hover, ih]

variable (hfits : ∀ cs, width' cs ≤ max' ↔ width cs ≤ max)

include hfits

theorem fill_congr (current : List Char) (ws : List (List Char)) :
    fill max' width' current ws = fill max width current ws := by
  induction ws generalizing current with
  | nil => rfl
  | cons w ws ih =>
      have hadd : addWord max' width' current w = addWord max width current w := by
        simp only [addWord, hfits, cut_congr hover]
      simp only [fill, hadd, ih]

/-- Measures that agree on what fits break a text alike. -/
theorem lines_congr (hroom : max' ≤ 0 ↔ max ≤ 0) (cs : List Char) :
    lines max' width' cs = lines max width cs := by
  have hparagraph : paragraphLines max' width' = paragraphLines max width := by
    funext paragraph
    simp only [paragraphLines, hroom, fill_congr hover hfits]
  rw [lines, lines, hparagraph]

end

end Wrap

end PagedReport
