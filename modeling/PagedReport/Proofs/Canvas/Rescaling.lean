import Mathlib.Tactic.Ring
import PagedReport.Proofs.Canvas.Moves
import PagedReport.Proofs.Number.Rational

/-!
# Canvases in other units

A canvas can be measured in a smaller unit: all its lengths are multiplied by a factor, and the
points in one unit are divided by it.  What is drawn depends on points only, so drawing and
measuring otherwise can be exchanged.
-/

namespace PagedReport

/-! ## Lengths multiplied -/

section

variable (k : ℚ)

def Size.rescale (s : Size ℚ) : Size ℚ := ⟨s.width * k, s.height * k⟩

def Margins.rescale (m : Margins ℚ) : Margins ℚ :=
  ⟨m.top * k, m.right * k, m.bottom * k, m.left * k⟩

def Cell.rescale (cell : Cell ℚ) : Cell ℚ :=
  { cell with width := cell.width * k, height := cell.height * k }

/-- The size of a font is in points already. -/
def Graphics.rescale (g : Graphics ℚ) : Graphics ℚ := { g with lineWidth := g.lineWidth * k }

mutual

def Step.rescale : Step ℚ → Step ℚ
  | .setMargins left top right => .setMargins (left * k) (top * k) (right * k)
  | .setAutoBreak enabled margin => .setAutoBreak enabled (margin * k)
  | .setInfo info => .setInfo info
  | .decorate header footer => .decorate (rescaleAll header) (rescaleAll footer)
  | .undecorate => .undecorate
  | .registerFont family style data => .registerFont family style data
  | .setFont family style size => .setFont family style size
  | .setTextColor c => .setTextColor c
  | .setFillColor c => .setFillColor c
  | .setDrawColor c => .setDrawColor c
  | .setLineWidth w => .setLineWidth (w * k)
  | .setX x => .setX (x * k)
  | .setY y => .setY (y * k)
  | .lineFeed height => .lineFeed (height.map (· * k))
  | .addPage => .addPage
  | .cell c => .cell (c.rescale k)
  | .multiCell c => .multiCell (c.rescale k)
  | .line x₁ y₁ x₂ y₂ => .line (x₁ * k) (y₁ * k) (x₂ * k) (y₂ * k)
  | .rect x y width height radius painting =>
      .rect (x * k) (y * k) (width * k) (height * k) (radius * k) painting
  | .image path x y width height => .image path (x * k) (y * k) (width * k) (height * k)
  | .imageExtent path width height => .imageExtent path (width * k) (height * k)
  | .flowImage path align x y width height spacing =>
      .flowImage path align (x * k) (y * k) (width * k) (height * k) (spacing * k)
  | .warn w => .warn w
  | .close => .close

def Step.rescaleAll : List (Step ℚ) → List (Step ℚ)
  | [] => []
  | s :: rest => s.rescale :: rescaleAll rest

end

theorem Step.rescaleAll_eq (steps : List (Step ℚ)) :
    Step.rescaleAll k steps = steps.map (Step.rescale k) := by
  induction steps with
  | nil => rfl
  | cons s steps ih => rw [Step.rescaleAll, ih, List.map_cons]

def Decorator.rescale (d : Decorator ℚ) : Decorator ℚ :=
  ⟨d.header.map (Step.rescale k), d.footer.map (Step.rescale k)⟩

namespace Canvas

theorem rescale_bandSteps (d : Decorator ℚ) (band : Origin) :
    bandSteps (d.rescale k) band = (bandSteps d band).map (Step.rescale k) := by
  cases band <;> rfl

mutual

theorem nesting_rescale (s : Step ℚ) : nesting (s.rescale k) = nesting s := by
  cases s with
  | decorate header footer =>
      rw [Step.rescale, nesting, nesting, nestings_rescaleAll header, nestings_rescaleAll footer]
  | _ => rfl

theorem nestings_rescaleAll (steps : List (Step ℚ)) :
    nestings (Step.rescaleAll k steps) = nestings steps := by
  cases steps with
  | nil => rfl
  | cons s steps =>
      rw [Step.rescaleAll, nestings, nestings, nesting_rescale s, nestings_rescaleAll steps]

end

theorem bandDepth_rescale (d : Decorator ℚ) : bandDepth (d.rescale k) = bandDepth d := by
  have hnestings (steps : List (Step ℚ)) :
      nestings (steps.map (Step.rescale k)) = nestings steps := by
    rw [← Step.rescaleAll_eq, nestings_rescaleAll]
  unfold bandDepth Decorator.rescale
  rw [hnestings, hnestings]

end Canvas

variable {D Output : Type}

def Canvas.rescale (c : Canvas ℚ D) : Canvas ℚ D :=
  { c with
    scale := c.scale / k
    pageSize := c.pageSize.rescale k
    margins := c.margins.rescale k
    cellMargin := c.cellMargin * k
    trigger := c.trigger * k
    x := c.x * k
    y := c.y * k
    lastHeight := c.lastHeight * k
    graphics := c.graphics.rescale k
    decorator := c.decorator.map (·.rescale k) }

end

namespace Canvas

variable {D Output : Type}

/-! ## Shapes and lines of text -/

section

variable {K : Type} [Scalar K]

def lineMark (x₁ y₁ x₂ y₂ : K) (c : Canvas K D) : Mark K :=
  .line (x₁ * c.scale) (y₁ * c.scale) (x₂ * c.scale) (y₂ * c.scale) c.paint

def rectMark (x y width height radius : K) (painting : Painting) (c : Canvas K D) : Mark K :=
  .rect (c.inPoints x y width height) (Scalar.larger radius 0 * c.scale) painting c.paint

/-- The lines that the text of a cell is wrapped into here. -/
def linesOf [Device K D Output] (cell : Cell K) (c : Canvas K D) : List WrappedLine :=
  Wrap.lines (c.widthOf cell - 2 * c.cellMargin) (fun cs ↦ c.stringWidth (String.ofList cs))
    cell.text.toList

end

variable {k : ℚ} {c : Canvas ℚ D}

/-! ## Points -/

section

variable (hk : 0 < k)

include hk

theorem rescale_points (a s : ℚ) : a * k * (s / k) = a * s := by
  field_simp

theorem rescale_paint : (c.rescale k).paint = c.paint :=
  congrArg (Paint.mk c.graphics.fillColor c.graphics.drawColor)
    (rescale_points hk c.graphics.lineWidth c.scale)

theorem rescale_inPoints (x y width height : ℚ) :
    (c.rescale k).inPoints (x * k) (y * k) (width * k) (height * k) =
      c.inPoints x y width height := by
  have hpoints (a : ℚ) : a * k * (c.scale / k) = a * c.scale := rescale_points hk a c.scale
  simp only [inPoints, rescale, hpoints]

theorem rescale_lineMark (x₁ y₁ x₂ y₂ : ℚ) :
    (c.rescale k).lineMark (x₁ * k) (y₁ * k) (x₂ * k) (y₂ * k) = c.lineMark x₁ y₁ x₂ y₂ := by
  have hscale : (c.rescale k).scale = c.scale / k := rfl
  unfold lineMark
  simp only [hscale, rescale_points hk, rescale_paint hk]

theorem rescale_rectMark (x y width height radius : ℚ) (painting : Painting) :
    (c.rescale k).rectMark (x * k) (y * k) (width * k) (height * k) (radius * k) painting =
      c.rectMark x y width height radius painting := by
  have hscale : (c.rescale k).scale = c.scale / k := rfl
  have hradius : Scalar.larger (radius * k) (0 * k) = Scalar.larger radius 0 * k :=
    Scalar.larger_mul hk radius 0
  unfold rectMark
  rw [zero_mul] at hradius
  rw [Scalar.zero_rat, hradius, hscale, rescale_points hk, rescale_inPoints hk, rescale_paint hk]

end

theorem rescale_fail (e : CanvasError) : (c.rescale k).fail e = (c.fail e).rescale k := by
  have herror : (c.rescale k).error = c.error := rfl
  unfold fail
  rw [herror]
  cases c.error <;> rfl

variable [Device ℚ D Output]

theorem rescale_puts (ms : List (Mark ℚ)) : (c.rescale k).puts ms = (c.puts ms).rescale k := by
  rw [puts_eq, puts_eq]
  rfl

theorem rescale_putPage (hk : 0 < k) : (c.rescale k).putPage = c.putPage.rescale k := by
  have hpoints (a : ℚ) : a * k * (c.scale / k) = a * c.scale := rescale_points hk a c.scale
  simp only [putPage, note, rescale, Size.rescale, hpoints]

/-! ## Texts -/

theorem rescale_stringWidth (text : String) :
    (c.rescale k).stringWidth text = c.stringWidth text * k := by
  have hwidth : (c.rescale k).fontWidth c.graphics.font.key text =
      c.fontWidth c.graphics.font.key text := rfl
  unfold stringWidth
  rw [show (c.rescale k).graphics.font = c.graphics.font from rfl, hwidth,
    show (c.rescale k).scale = c.scale / k from rfl, div_div_eq_mul_div, mul_div_right_comm]

theorem rescale_measuredWords (text : String) :
    (c.rescale k).measuredWords text = (c.measuredWords text).map fun w ↦ (w.1, w.2 * k) := by
  simp only [measuredWords, List.map_map, Function.comp_def, rescale_stringWidth]

theorem foldl_add_mul (ws : List ℚ) (a : ℚ) :
    (ws.map (· * k)).foldl (· + ·) (a * k) = ws.foldl (· + ·) a * k := by
  induction ws generalizing a with
  | nil => rfl
  | cons w ws ih => rw [List.map_cons, List.foldl_cons, ← add_mul, ih, List.foldl_cons]

section

variable (hk : 0 < k)

include hk

theorem rescale_wordGap (words : List (String × ℚ)) (width : ℚ) :
    (c.rescale k).wordGap (words.map fun w ↦ (w.1, w.2 * k)) (width * k) =
      c.wordGap words width * k := by
  have hsum : ((words.map fun w ↦ (w.1, w.2 * k)).map (·.2)).foldl (· + ·) 0 =
      (words.map (·.2)).foldl (· + ·) 0 * k := by
    have hmap : (words.map fun w ↦ (w.1, w.2 * k)).map (·.2) = (words.map (·.2)).map (· * k) := by
      simp only [List.map_map, Function.comp_def]
    rw [hmap, ← foldl_add_mul, zero_mul]
  have hfree (a b s : ℚ) :
      a * k - b * (c.cellMargin * k) - s * k = (a - b * c.cellMargin - s) * k := by
    ring
  unfold wordGap
  simp only [List.length_map, Scalar.zero_rat, hsum, rescale_stringWidth]
  rw [show (c.rescale k).cellMargin = c.cellMargin * k from rfl, hfree, ← div_mul_eq_mul_div,
    Scalar.larger_mul hk]

theorem rescale_textMarks (g : Graphics ℚ) (s x baseline : ℚ) (text : String) (width : ℚ) :
    textMarks (g.rescale k) (s / k) x baseline text width =
      textMarks g s x baseline text width := by
  have hpaint : paintOf (g.rescale k) (s / k) = paintOf g s :=
    congrArg (Paint.mk g.fillColor g.drawColor) (rescale_points hk g.lineWidth s)
  unfold textMarks
  rw [hpaint]
  rfl

theorem rescale_wordMarks (g : Graphics ℚ) (s baseline gap cursor : ℚ)
    (words : List (String × ℚ)) :
    wordMarks (g.rescale k) (s / k) baseline (gap * k) (cursor * k)
        (words.map fun w ↦ (w.1, w.2 * k)) =
      wordMarks g s baseline gap cursor words := by
  induction words generalizing cursor with
  | nil => rfl
  | cons w words ih =>
      have hnext : cursor * k + (w.2 * k + gap * k) = (cursor + (w.2 + gap)) * k := by ring
      rw [List.map_cons, wordMarks, wordMarks, hnext, ih, rescale_textMarks hk, rescale_points hk,
        rescale_points hk]

theorem rescale_contentMarks (cell : Cell ℚ) (justify : Bool) (width : ℚ) :
    (c.rescale k).contentMarks (cell.rescale k) justify (width * k) =
      c.contentMarks cell justify width := by
  have hbaseline (a : ℚ) : (c.y * k + a * (cell.height * k)) * (c.scale / k) =
      (c.y + a * cell.height) * c.scale := by
    rw [← rescale_points hk (c.y + a * cell.height)]
    ring
  have hmiddle (w b : ℚ) : (width * k - w * k) / b = (width - w) / b * k := by ring
  unfold contentMarks
  simp only [rescale_stringWidth, rescale_measuredWords, rescale_wordGap hk]
  simp only [rescale, Cell.rescale, hbaseline]
  cases justify with
  | true =>
      simp only [if_pos, ← add_mul, rescale_wordMarks hk]
      rfl
  | false =>
      cases cell.align with
      | left | justify | right =>
          simp only [← sub_mul, ← add_mul, rescale_points hk, rescale_textMarks hk]
          rfl
      | center =>
          simp only [hmiddle, ← add_mul, rescale_points hk, rescale_textMarks hk]
          rfl

theorem rescale_boxMarks (cell : Cell ℚ) (width : ℚ) :
    (c.rescale k).boxMarks (cell.rescale k) (width * k) = c.boxMarks cell width := by
  have hborder (x y w h : ℚ) :
      borderMarks c.paint (c.scale / k) cell.border (x * k) (y * k) (w * k) (h * k) =
        borderMarks c.paint c.scale cell.border x y w h := by
    simp only [borderMarks, ← add_mul, rescale_points hk]
  have hbox := rescale_inPoints (c := c) hk c.x c.y width cell.height
  unfold boxMarks
  rw [rescale_paint hk]
  change _ ++ (if _ then _ else borderMarks c.paint (c.scale / k) cell.border (c.x * k) (c.y * k)
    (width * k) (cell.height * k)) = _
  rw [hborder]
  change (if _ then [Mark.rect ((c.rescale k).inPoints (c.x * k) (c.y * k) (width * k)
    (cell.height * k)) _ _ _] else _) ++ _ = _
  rw [hbox]
  rfl

theorem rescale_cellMarks (cell : Cell ℚ) (justify : Bool) (width : ℚ) :
    (c.rescale k).cellMarks (cell.rescale k) justify (width * k) =
      c.cellMarks cell justify width := by
  rw [cellMarks, rescale_boxMarks hk, rescale_puts, rescale_contentMarks hk, cellMarks]

/-! ## Room -/

theorem rescale_widthOf (cell : Cell ℚ) :
    (c.rescale k).widthOf (cell.rescale k) = c.widthOf cell * k := by
  have hwidth : (cell.width * k == 0) = (cell.width == 0) := Scalar.mul_beq_zero hk cell.width
  unfold widthOf
  simp only [rescale, Cell.rescale, Size.rescale, Margins.rescale, Scalar.zero_rat, hwidth,
    ← sub_mul]
  split <;> rfl

theorem rescale_breaksPage (height : ℚ) :
    (c.rescale k).breaksPage (height * k) = c.breaksPage height := by
  have htrigger : c.trigger * k < c.y * k + height * k ↔ c.trigger < c.y + height := by
    rw [← add_mul, mul_lt_mul_iff_left₀ hk]
  exact congrArg (c.autoBreak && decide (c.origin = .body) && ·) (decide_eq_decide.mpr htrigger)

/-- The lines that a text is wrapped into do not depend on the unit. -/
theorem rescale_linesOf (cell : Cell ℚ) :
    (c.rescale k).linesOf (cell.rescale k) = c.linesOf cell := by
  have hroom (a : ℚ) : (c.rescale k).widthOf (cell.rescale k) - a * (c.rescale k).cellMargin =
      (c.widthOf cell - a * c.cellMargin) * k := by
    rw [rescale_widthOf hk, show (c.rescale k).cellMargin = c.cellMargin * k from rfl]
    ring
  unfold linesOf
  simp only [hroom, rescale_stringWidth]
  apply Wrap.lines_congr
  · exact fun cs ↦ mul_lt_mul_iff_left₀ hk
  · exact fun cs ↦ mul_le_mul_iff_left₀ hk
  · rw [Scalar.zero_rat]
    exact Scalar.mul_nonpos_iff_left hk _

end

end Canvas

end PagedReport
