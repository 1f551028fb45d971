import Mathlib.Algebra.Order.BigOperators.Group.List
import Mathlib.Tactic.Linarith
import Mathlib.Tactic.Ring
import PagedReport.Proofs.Text.Greedy

/-!
# Words from edge to edge

If a text is as wide as its characters together, a row of words is as wide as the words with a space
between each two.  A row that fits therefore leaves room for gaps that are no narrower than a space,
and with gaps that take up all the room its words reach from one edge to the other.
-/

namespace PagedReport

namespace Wrap

/-! ## Widths that add up -/

/-- The characters of a text next to one another. -/
def across (charWidth : Char → ℚ) (cs : List Char) : ℚ := (cs.map charWidth).sum

section

variable (charWidth : Char → ℚ)

theorem across_append (cs ds : List Char) :
    across charWidth (cs ++ ds) = across charWidth cs + across charWidth ds := by
  rw [across, List.map_append, List.sum_append, across, across]

theorem across_space : across charWidth [' '] = charWidth ' ' := List.sum_singleton

variable {charWidth}

theorem across_nonneg (hchar : ∀ c, 0 ≤ charWidth c) (cs : List Char) : 0 ≤ across charWidth cs :=
  List.sum_nonneg fun _ ha ↦ by
    obtain ⟨c, -, rfl⟩ := List.mem_map.mp ha
    exact hchar c

/-- A row is as wide as its words and the spaces between them. -/
theorem across_spaced (v : List Char) (row : Words) :
    across charWidth (spaced (v :: row)) =
      ((v :: row).map (across charWidth)).sum + row.length * charWidth ' ' := by
  induction row generalizing v with
  | nil => simp
  | cons w row ih =>
      have hsplit : spaced (v :: w :: row) = v ++ ([' '] ++ spaced (w :: row)) := by
        rw [spaced_cons_cons]
        rfl
      rw [hsplit, across_append, across_append, across_space, ih, List.map_cons (a := v),
        List.sum_cons, List.length_cons, Nat.cast_succ]
      ring

end

/-! ## Words and gaps -/

section

variable (width : List Char → ℚ) (gap : ℚ)

/-- Words from a place on, one gap apart, each with the place where it starts. -/
def spread : ℚ → Words → List (ℚ × List Char)
  | _, [] => []
  | start, w :: ws => (start, w) :: spread (start + (width w + gap)) ws

variable {width gap} {start : ℚ} {ws : Words}

theorem map_snd_spread : (spread width gap start ws).map (·.2) = ws := by
  induction ws generalizing start with
  | nil => rfl
  | cons w ws ih => rw [spread, List.map_cons, ih]

theorem length_spread : (spread width gap start ws).length = ws.length := by
  have hlength := congrArg List.length (map_snd_spread : (spread width gap start ws).map (·.2) = ws)
  rwa [List.length_map] at hlength

theorem head?_spread {run : ℚ × List Char} (hrun : run ∈ (spread width gap start ws).head?) :
    run.1 = start := by
  cases ws with
  | nil => cases hrun
  | cons w ws =>
      obtain rfl := Option.mem_some_iff.mp hrun
      rfl

/-- The last word ends behind all words and all gaps. -/
theorem getLast?_spread {v : List Char} {run : ℚ × List Char}
    (hrun : run ∈ (spread width gap start (v :: ws)).getLast?) :
    run.1 + width run.2 = start + ((v :: ws).map width).sum + ws.length * gap := by
  induction ws generalizing start v with
  | nil =>
      have hlast : (start, v) = run := Option.mem_some_iff.mp hrun
      rw [← hlast]
      simp
  | cons w ws ih =>
      have hrest : run ∈ (spread width gap (start + (width v + gap)) (w :: ws)).getLast? := hrun
      rw [ih hrest, List.map_cons (a := v), List.sum_cons, List.length_cons, Nat.cast_succ]
      ring

theorem isChain_spread : (spread width gap start ws).IsChain
    fun run next ↦ next.1 = run.1 + width run.2 + gap := by
  induction ws generalizing start with
  | nil => exact .nil
  | cons w ws ih =>
      refine List.IsChain.cons ih fun next hnext ↦ ?_
      rw [head?_spread hnext, add_assoc]

section

variable (hwidth : ∀ w, 0 ≤ width w) (hgap : 0 ≤ gap)

include hwidth hgap

theorem start_le_of_mem_spread {run : ℚ × List Char} (hrun : run ∈ spread width gap start ws) :
    start ≤ run.1 := by
  induction ws generalizing start with
  | nil => cases hrun
  | cons w ws ih =>
      rcases List.mem_cons.mp hrun with rfl | hrest
      · exact le_refl start
      · have hnext := ih hrest
        have hword := hwidth w
        linarith

theorem pairwise_spread : (spread width gap start ws).Pairwise
    fun run later ↦ run.1 + width run.2 ≤ later.1 := by
  induction ws generalizing start with
  | nil => exact .nil
  | cons w ws ih =>
      refine .cons (fun later hlater ↦ ?_) ih
      have hnext := start_le_of_mem_spread hwidth hgap hlater
      dsimp only
      linarith

end

end

/-- Words that reach from one edge to the other: the first starts at the left edge, the last of
several ends at the right edge, the gaps between them are all the same and no narrower than a space,
and no word stands on another. -/
structure Flush (width : List Char → ℚ) (left right : ℚ) (runs : List (ℚ × List Char)) : Prop where
  first : ∀ run ∈ runs.head?, run.1 = left
  last : 2 ≤ runs.length → ∀ run ∈ runs.getLast?, run.1 + width run.2 = right
  even : ∃ gap, width [' '] ≤ gap ∧
    runs.IsChain fun run next ↦ next.1 = run.1 + width run.2 + gap
  apart : runs.Pairwise fun run later ↦ run.1 + width run.2 ≤ later.1

/-- The gap between words that are to take up some room. -/
def evenGap (width : List Char → ℚ) (room : ℚ) (ws : Words) : ℚ :=
  Scalar.larger ((room - (ws.map width).sum) / (max (ws.length - 1) 1 : ℕ)) (width [' '])

variable {charWidth : Char → ℚ}

/-- In a row that fits, the even gap takes up exactly the room that the words leave. -/
theorem evenGap_eq {v w : List Char} {row : Words} {room : ℚ}
    (hfits : across charWidth (spaced (v :: w :: row)) ≤ room) :
    (w :: row).length * evenGap (across charWidth) room (v :: w :: row) =
      room - ((v :: w :: row).map (across charWidth)).sum := by
  have hgaps : max ((v :: w :: row).length - 1) 1 = (w :: row).length := by
    simp
  have hpos : (0 : ℚ) < (w :: row).length := by
    rw [List.length_cons]
    positivity
  have hroom : charWidth ' ' ≤
      (room - ((v :: w :: row).map (across charWidth)).sum) / (w :: row).length := by
    rw [le_div_iff₀ hpos, mul_comm]
    rw [across_spaced] at hfits
    linarith
  rw [evenGap, hgaps, across_space, Scalar.larger_eq_left hroom, mul_div_cancel₀ _ hpos.ne']

/-- A row that fits is spread from one edge to the other. -/
theorem flush_spread (hchar : ∀ c, 0 ≤ charWidth c) {left right : ℚ} {row : Words}
    (hfits : 2 ≤ row.length → across charWidth (spaced row) ≤ right - left) :
    Flush (across charWidth) left right
      (spread (across charWidth) (evenGap (across charWidth) (right - left) row) left row) := by
  have hspace : across charWidth [' '] ≤ evenGap (across charWidth) (right - left) row :=
    Scalar.le_larger _ _
  refine ⟨fun _ ↦ head?_spread, fun hseveral run hrun ↦ ?_, ⟨_, hspace, isChain_spread⟩,
    pairwise_spread (across_nonneg hchar) ((across_nonneg hchar _).trans hspace)⟩
  rw [length_spread] at hseveral
  match row, hseveral with
  | v :: w :: row, hseveral =>
      rw [getLast?_spread hrun, evenGap_eq (hfits hseveral)]
      ring

/-! ## Soft lines -/

/-- A line that goes on is a row of words, and it fits if there are several. -/
def Fitting (width : List Char → ℚ) (room : ℚ) (line : WrappedLine) : Prop :=
  line.hardBreak = false → line.text = spaced (words line.text) ∧
    (2 ≤ (words line.text).length → width line.text ≤ room)

theorem fitting_of_mem_lines {room : ℚ} {width : List Char → ℚ} {text : List Char}
    {line : WrappedLine} (hline : line ∈ lines room width text) : Fitting width room line := by
  intro hsoft
  obtain ⟨paragraph, -, hline⟩ := List.mem_flatMap.mp hline
  obtain ⟨rows, hrows, row, hrow, htext⟩ := exists_row_of_soft hline hsoft
  obtain ⟨-, hwords⟩ := hrows.isWord (fun _ ↦ isWord_of_mem_words) row hrow
  rw [htext, words_spaced hwords]
  refine ⟨rfl, fun hseveral ↦ (hrows.fits row hrow).resolve_right fun hsingle ↦ ?_⟩
  match row, hseveral with
  | v :: w :: row, _ =>
      -- two words and the space between them are more than a character
      have hv := List.length_pos_iff.mpr (hwords v List.mem_cons_self).1
      rw [spaced_cons_cons, List.length_append, List.length_cons] at hsingle
      have hw : spaced (w :: row) ≠ [] := fun hnone ↦ nomatch (spaced_ends fun piece hpiece ↦
        hwords piece (List.mem_cons_of_mem v hpiece)).2.2 hnone
      have hrest := List.length_pos_iff.mpr hw
      omega

end Wrap

end PagedReport
