import PagedReport.Proofs.Canvas.Bands
import PagedReport.Proofs.Canvas.Frozen
import PagedReport.Proofs.Canvas.Rescaling

/-!
# The unit of a document

Whatever is done with a canvas, it can be done in points instead: if all lengths are converted, the
same is drawn, lines and pages break at the same places, and the cursor is where it was.  Each
operation converts lengths on its own, so this is shown of each of them, and of runs by induction on
the steps and on the depth of bands.
-/

namespace PagedReport

namespace Canvas

variable {D Output : Type} [Device ℚ D Output] {k : ℚ} (hk : 0 < k)

include hk

/-! ## Pages -/

omit hk in
/-- Bands that are drawn alike in both units. -/
def Covariant (k : ℚ) (hook' : Origin → Canvas ℚ D → Canvas ℚ D) : Prop :=
  ∀ band c, hook' band (c.rescale k) = (hook' band c).rescale k

section

variable {hook' : Origin → Canvas ℚ D → Canvas ℚ D} (hhook : Covariant k hook')

include hhook

theorem rescale_addPageWith (c : Canvas ℚ D) :
    addPageWith hook' (c.rescale k) = (addPageWith hook' c).rescale k := by
  have herror : (c.rescale k).error = c.error := rfl
  have hclosed : (c.rescale k).closed = c.closed := rfl
  have hpages : (c.rescale k).pageCount = c.pageCount := rfl
  have hended : (if 0 < c.pageCount then hook' .footer (c.rescale k) else c.rescale k) =
      (if 0 < c.pageCount then hook' .footer c else c).rescale k := by
    rw [hhook]
    split <;> rfl
  have hturned (d : Canvas ℚ D) :
      { (d.rescale k).putPage.home with graphics := (c.rescale k).graphics } =
        ({ d.putPage.home with graphics := c.graphics } : Canvas ℚ D).rescale k := by
    rw [rescale_putPage hk]
    rfl
  unfold addPageWith
  rw [herror, hclosed, hpages]
  split
  · rfl
  · split
    · exact rescale_fail _
    · dsimp only
      rw [hended, hturned, hhook]
      rfl

theorem rescale_closeWith (c : Canvas ℚ D) :
    closeWith hook' (c.rescale k) = (closeWith hook' c).rescale k := by
  have hclosed : (c.rescale k).closed = c.closed := rfl
  have hpages : (c.rescale k).pageCount = c.pageCount := rfl
  unfold closeWith
  rw [hclosed, hpages]
  split
  · rfl
  · have hpaged : (if c.pageCount = 0 then addPageWith hook' (c.rescale k) else c.rescale k) =
        (if c.pageCount = 0 then addPageWith hook' c else c).rescale k := by
      rw [rescale_addPageWith hk hhook]
      split <;> rfl
    dsimp only
    rw [hpaged, hhook]
    rfl

theorem rescale_prepareWith (c : Canvas ℚ D) :
    prepareWith hook' (c.rescale k) =
      ((prepareWith hook' c).1.rescale k, (prepareWith hook' c).2) := by
  have herror : (c.rescale k).error = c.error := rfl
  have hclosed : (c.rescale k).closed = c.closed := rfl
  have hpages : (c.rescale k).pageCount = c.pageCount := rfl
  unfold prepareWith
  rw [herror, hclosed, hpages]
  split
  · rfl
  · split
    · rw [rescale_fail]
    · rw [rescale_addPageWith hk hhook]
      split <;> rfl

/-- What is drawn in both units once it is possible, after getting ready in both. -/
theorem rescale_prepared {f g : Canvas ℚ D → Canvas ℚ D}
    (hfg : ∀ c, g (c.rescale k) = (f c).rescale k) (c : Canvas ℚ D) :
    (if (prepareWith hook' (c.rescale k)).2 then g (prepareWith hook' (c.rescale k)).1
        else (prepareWith hook' (c.rescale k)).1) =
      (if (prepareWith hook' c).2 then f (prepareWith hook' c).1
        else (prepareWith hook' c).1).rescale k := by
  rw [rescale_prepareWith hk hhook]
  dsimp only
  rw [hfg]
  split <;> rfl

/-! ## Cells -/

theorem rescale_turnWith (height : ℚ) (c : Canvas ℚ D) :
    turnWith hook' (height * k) (c.rescale k) = (turnWith hook' height c).rescale k := by
  unfold turnWith
  rw [rescale_breaksPage hk, rescale_addPageWith hk hhook]
  split <;> rfl

omit hhook hk in
theorem rescale_advance (cell : Cell ℚ) (width : ℚ) (c : Canvas ℚ D) :
    (c.rescale k).advance (cell.rescale k) (width * k) = (c.advance cell width).rescale k := by
  unfold advance
  simp only [rescale, Cell.rescale, Margins.rescale, ← add_mul]
  cases cell.advance <;> rfl

theorem rescale_drawCellWith (cell : Cell ℚ) (justify : Bool) (c : Canvas ℚ D) :
    drawCellWith hook' (cell.rescale k) justify (c.rescale k) =
      (drawCellWith hook' cell justify c).rescale k := by
  rw [drawCellWith_eq, drawCellWith_eq]
  have hturn : turnWith hook' (cell.rescale k).height (c.rescale k) =
      (turnWith hook' cell.height c).rescale k := rescale_turnWith hk hhook cell.height c
  rw [hturn]
  dsimp only
  rw [rescale_widthOf hk, rescale_cellMarks hk, rescale_puts, rescale_advance]

theorem rescale_drawRows (cell : Cell ℚ) (width x : ℚ) (first : Bool) (lines : List WrappedLine)
    (c : Canvas ℚ D) :
    drawRows hook' (cell.rescale k) (width * k) (x * k) first lines (c.rescale k) =
      (drawRows hook' cell width x first lines c).rescale k := by
  induction lines generalizing first c with
  | nil => rfl
  | cons line lines ih =>
      have hrow := rescale_drawCellWith hk hhook
        { cell with
          width
          text := String.ofList line.text
          border := cell.border.ofLine first lines.isEmpty
          advance := .below }
        (cell.align = .justify && !line.hardBreak) { c with x }
      rw [drawRows, drawRows, ← ih, ← hrow]
      rfl

theorem rescale_multiCellWith (cell : Cell ℚ) (c : Canvas ℚ D) :
    multiCellWith hook' (cell.rescale k) (c.rescale k) =
      (multiCellWith hook' cell c).rescale k := by
  let filled (cell : Cell ℚ) (c : Canvas ℚ D) : Canvas ℚ D :=
    drawRows hook' cell (c.widthOf cell) c.x true (c.linesOf cell) c
  let returned (c : Canvas ℚ D) : Canvas ℚ D := { c with x := c.margins.left }
  have hfilled (c : Canvas ℚ D) :
      filled (cell.rescale k) (c.rescale k) = (filled cell c).rescale k := by
    dsimp only [filled]
    rw [rescale_linesOf hk, rescale_widthOf hk]
    exact rescale_drawRows hk hhook cell _ c.x true _ c
  exact rescale_prepared hk hhook (f := fun c ↦ returned (filled cell c))
    (g := fun c ↦ returned (filled (cell.rescale k) c)) (fun c ↦ by rw [hfilled]; rfl) c

/-! ## Shapes -/

theorem rescale_lineWith (x₁ y₁ x₂ y₂ : ℚ) (c : Canvas ℚ D) :
    lineWith hook' (x₁ * k) (y₁ * k) (x₂ * k) (y₂ * k) (c.rescale k) =
      (lineWith hook' x₁ y₁ x₂ y₂ c).rescale k :=
  rescale_prepared hk hhook (f := fun c ↦ c.put (c.lineMark x₁ y₁ x₂ y₂))
    (g := fun c ↦ c.put (c.lineMark (x₁ * k) (y₁ * k) (x₂ * k) (y₂ * k)))
    (fun c ↦ by rw [rescale_lineMark hk]; rfl) c

theorem rescale_rectWith (x y width height radius : ℚ) (painting : Painting) (c : Canvas ℚ D) :
    rectWith hook' (x * k) (y * k) (width * k) (height * k) (radius * k) painting (c.rescale k) =
      (rectWith hook' x y width height radius painting c).rescale k :=
  rescale_prepared hk hhook (f := fun c ↦ c.put (c.rectMark x y width height radius painting))
    (g := fun c ↦ c.put
      (c.rectMark (x * k) (y * k) (width * k) (height * k) (radius * k) painting))
    (fun c ↦ by rw [rescale_rectMark hk]; rfl) c

/-! ## The cursor -/

omit hhook in
theorem rescale_setX (x : ℚ) (c : Canvas ℚ D) :
    (c.rescale k).setX (x * k) = (c.setX x).rescale k := by
  have hedge : c.pageSize.width * k + x * k = (c.pageSize.width + x) * k := (add_mul ..).symm
  unfold setX
  simp only [rescale, Size.rescale, Scalar.zero_rat, mul_nonneg_iff_of_pos_right hk, hedge]
  split <;> rfl

omit hhook in
theorem rescale_setY (y : ℚ) (c : Canvas ℚ D) :
    (c.rescale k).setY (y * k) = (c.setY y).rescale k := by
  have hedge : c.pageSize.height * k + y * k = (c.pageSize.height + y) * k := (add_mul ..).symm
  unfold setY
  simp only [rescale, Size.rescale, Scalar.zero_rat, mul_nonneg_iff_of_pos_right hk, hedge]
  split <;> rfl

omit hhook hk in
theorem rescale_lineFeed (height : Option ℚ) (c : Canvas ℚ D) :
    (c.rescale k).lineFeed (height.map (· * k)) = (c.lineFeed height).rescale k := by
  unfold lineFeed
  cases height <;> simp only [rescale, Option.map_some, Option.map_none, Option.getD_some,
    Option.getD_none, ← add_mul, Margins.rescale]

omit hhook hk in
theorem rescale_flowX (align : Option Align) (x width : ℚ) (c : Canvas ℚ D) :
    (c.rescale k).flowX align (x * k) (width * k) = c.flowX align x width * k := by
  have hhalf (a b : ℚ) : a * k / b = a / b * k := by rw [div_mul_eq_mul_div]
  unfold flowX
  simp only [rescale, Size.rescale, Margins.rescale, ← sub_mul, hhalf, ← add_mul]
  split <;> rfl

omit hhook hk in
theorem rescale_setAutoBreak (enabled : Bool) (margin : ℚ) (c : Canvas ℚ D) :
    (c.rescale k).setAutoBreak enabled (margin * k) =
      (c.setAutoBreak enabled margin).rescale k := by
  simp only [setAutoBreak, rescale, Size.rescale, Margins.rescale, sub_mul]

/-! ## Images -/

/-- An image that was measured or placed, with its extent. -/
def rescaleSized (k : ℚ) (p : Canvas ℚ D × Option (ℚ × ℚ)) : Canvas ℚ D × Option (ℚ × ℚ) :=
  (p.1.rescale k, p.2.map fun extent ↦ (extent.1 * k, extent.2 * k))

omit hhook in
theorem rescale_extentOf (pixels : ℕ × ℕ) (width height : ℚ) (c : Canvas ℚ D) :
    (c.rescale k).extentOf pixels (width * k) (height * k) =
      ((c.extentOf pixels width height).1 * k, (c.extentOf pixels width height).2 * k) := by
  have hscale : (c.rescale k).scale = c.scale / k := rfl
  have hside (a b d : ℚ) : a * k * b / d = a * b / d * k := by ring
  have hnatural (a : ℚ) : a / (c.scale / k) = a / c.scale * k := by
    rw [div_div_eq_mul_div, mul_div_right_comm]
  unfold extentOf
  simp only [hscale, hnatural, hside, Scalar.zero_rat, mul_pos_iff_of_pos_right hk]
  split
  · split <;> rfl
  · split <;> rfl

omit hhook in
theorem rescale_measure (path : String) (width height : ℚ) (c : Canvas ℚ D) :
    measure path (width * k) (height * k) (c.rescale k) =
      rescaleSized k (measure path width height c) := by
  have hdevice : (c.rescale k).device = c.device := rfl
  unfold measure
  rw [hdevice]
  cases Device.imageSize path c.device with
  | error e => exact congrArg (·, none) (rescale_fail e)
  | ok loaded =>
      obtain ⟨pixels, device⟩ := loaded
      dsimp only
      split
      · exact congrArg (·, none) (rescale_fail (c := { c with device }) _)
      · exact congrArg (fun extent ↦ ({ c with device }.rescale k, some extent))
          (rescale_extentOf hk pixels width height { c with device })

theorem rescale_imageExtentWith (path : String) (width height : ℚ) (c : Canvas ℚ D) :
    imageExtentWith hook' path (width * k) (height * k) (c.rescale k) =
      rescaleSized k (imageExtentWith hook' path width height c) := by
  rw [imageExtentWith_eq, imageExtentWith_eq, rescale_prepareWith hk hhook]
  dsimp only
  rw [rescale_measure hk]
  split <;> rfl

omit hhook in
theorem rescale_place (path : String) (x y : ℚ) (p : Canvas ℚ D × Option (ℚ × ℚ)) :
    place path (x * k) (y * k) (rescaleSized k p) = rescaleSized k (place path x y p) := by
  obtain ⟨c, _ | ⟨w, h⟩⟩ := p
  · rfl
  · have hplace := rescale_inPoints (c := c) hk x y w h
    have hdevice : (c.rescale k).device = c.device := rfl
    unfold place rescaleSized
    dsimp only [Option.map_some]
    rw [hplace, hdevice]
    cases Device.image path (c.inPoints x y w h) c.device with
    | error e => exact congrArg (·, none) (rescale_fail e)
    | ok device => rfl

theorem rescale_imageWith (path : String) (x y width height : ℚ) (c : Canvas ℚ D) :
    imageWith hook' path (x * k) (y * k) (width * k) (height * k) (c.rescale k) =
      rescaleSized k (imageWith hook' path x y width height c) := by
  rw [imageWith_eq, rescale_imageExtentWith hk hhook, rescale_place hk, imageWith_eq]

theorem rescale_flowStart (path : String) (align : Option Align) (width height : ℚ)
    (c : Canvas ℚ D) :
    flowStart hook' path align (width * k) (height * k) (c.rescale k) =
      rescaleSized k (flowStart hook' path align width height c) := by
  unfold flowStart
  rw [rescale_imageExtentWith hk hhook]
  split <;> rfl

omit hhook in
theorem rescale_flowEnd (y spacing : ℚ) (p : Canvas ℚ D × Option (ℚ × ℚ)) :
    flowEnd (y * k) (spacing * k) (rescaleSized k p) = (flowEnd y spacing p).rescale k := by
  obtain ⟨c, _ | ⟨w, h⟩⟩ := p
  · rfl
  · have hsetY : (c.rescale k).setY (y * k + h * k) = (c.setY (y + h)).rescale k := by
      rw [← add_mul, rescale_setY hk]
    unfold flowEnd rescaleSized
    simp only [Option.map_some, Scalar.zero_rat, mul_pos_iff_of_pos_right hk, hsetY]
    split
    · split
      · exact rescale_lineFeed (some spacing) (c.setY (y + h))
      · exact rescale_lineFeed (some spacing) c
    · split <;> rfl

theorem rescale_flowImageWith (path : String) (align : Option Align)
    (x y width height spacing : ℚ) (c : Canvas ℚ D) :
    flowImageWith hook' path align (x * k) (y * k) (width * k) (height * k) (spacing * k)
        (c.rescale k) =
      (flowImageWith hook' path align x y width height spacing c).rescale k := by
  rw [flowImageWith_eq, flowImageWith_eq, rescale_flowStart hk hhook]
  generalize flowStart hook' path align width height c = start
  obtain ⟨d, _ | ⟨w, h⟩⟩ := start
  · rfl
  · have hy : (if y * k == 0 then (d.rescale k).y else y * k) =
        (if y == 0 then d.y else y) * k := by
      rw [Scalar.mul_beq_zero hk]
      split <;> rfl
    unfold rescaleSized
    dsimp only [Option.map_some]
    rw [Scalar.zero_rat, hy, rescale_flowX, rescale_imageWith hk hhook, rescale_flowEnd hk]

/-! ## Steps -/

theorem rescale_stepWith (s : Step ℚ) (c : Canvas ℚ D) :
    stepWith hook' (s.rescale k) (c.rescale k) = (stepWith hook' s c).rescale k := by
  cases s with
  | setInfo | undecorate | setTextColor | setFillColor | setDrawColor | setLineWidth | warn => rfl
  | setMargins => rfl
  | setAutoBreak enabled margin => exact rescale_setAutoBreak enabled margin c
  | decorate header footer =>
      simp only [Step.rescale, Step.rescaleAll_eq, stepWith]
      rfl
  | registerFont family style data =>
      have hregister : (c.rescale k).registerFont family style data =
          (c.registerFont family style data).map (·.rescale k) := by
        unfold registerFont
        rw [show (c.rescale k).device = c.device from rfl]
        cases Device.registerFont (.ofText family style) data c.device <;> rfl
      simp only [Step.rescale, stepWith, hregister]
      cases c.registerFont family style data <;> rfl
  | setFont family style size =>
      have hchoice : (c.rescale k).chooseFont family style = c.chooseFont family style := rfl
      simp only [Step.rescale, stepWith, setFont, hchoice]
      cases (c.chooseFont family style).2 <;> rfl
  | setX x => exact rescale_setX hk x c
  | setY y => exact rescale_setY hk y c
  | lineFeed height => exact rescale_lineFeed height c
  | addPage => exact rescale_addPageWith hk hhook c
  | cell cell =>
      exact rescale_prepared hk hhook (rescale_drawCellWith hk hhook cell false) c
  | multiCell cell => exact rescale_multiCellWith hk hhook cell c
  | line => exact rescale_lineWith hk hhook _ _ _ _ c
  | rect => exact rescale_rectWith hk hhook _ _ _ _ _ _ c
  | image => exact congrArg Prod.fst (rescale_imageWith hk hhook _ _ _ _ _ c)
  | imageExtent => exact congrArg Prod.fst (rescale_imageExtentWith hk hhook _ _ _ c)
  | flowImage => exact rescale_flowImageWith hk hhook _ _ _ _ _ _ _ c
  | close => exact rescale_closeWith hk hhook c

theorem rescale_steps (steps : List (Step ℚ)) (c : Canvas ℚ D) :
    (steps.map (Step.rescale k)).foldl (fun c s ↦ stepWith hook' s c) (c.rescale k) =
      (steps.foldl (fun c s ↦ stepWith hook' s c) c).rescale k := by
  induction steps generalizing c with
  | nil => rfl
  | cons s steps ih =>
      rw [List.map_cons, List.foldl_cons, rescale_stepWith hk hhook, ih, List.foldl_cons]

end

/-! ## Bands -/

theorem rescale_hookAt (depth : ℕ) : Covariant k (hookAt (D := D) depth) := by
  -- the bands that a band sets are drawn one level deeper
  induction depth with
  | zero => exact fun band c ↦ rfl
  | succ depth ih =>
      intro band c
      cases hd : c.decorator with
      | none =>
          have hrescaled : (c.rescale k).decorator = none := congrArg (Option.map _) hd
          rw [hookAt, hookAt, hrescaled, hd]
      | some d =>
          have hrescaled : (c.rescale k).decorator = some (d.rescale k) :=
            congrArg (Option.map _) hd
          have hband := rescale_steps hk ih (bandSteps d band) { c with origin := band }
          rw [← rescale_bandSteps] at hband
          rw [hookAt_of_some hrescaled, hookAt_of_some hd]
          exact congrArg (fun c : Canvas ℚ D ↦ { c with origin := .body }) hband

theorem rescale_hook : Covariant k (hook (D := D)) := by
  intro band c
  have hdepth : ((c.rescale k).decorator.map bandDepth).getD 0 =
      (c.decorator.map bandDepth).getD 0 := by
    change ((c.decorator.map (·.rescale k)).map bandDepth).getD 0 = _
    simp only [Option.map_map, Function.comp_def, bandDepth_rescale]
  unfold hook
  rw [hdepth]
  exact rescale_hookAt hk _ band c

/-! ## Operations -/

theorem rescale_step (s : Step ℚ) (c : Canvas ℚ D) :
    (c.rescale k).step (s.rescale k) = (c.step s).rescale k :=
  rescale_stepWith hk (rescale_hook hk) s c

theorem rescale_write (sink : Sink) (c : Canvas ℚ D) :
    (c.rescale k).write sink = ((c.write sink).1.rescale k, (c.write sink).2) := by
  have hclose : (c.rescale k).close = c.close.rescale k :=
    rescale_closeWith hk (rescale_hook hk) c
  have herror : (c.close.rescale k).error = c.close.error := rfl
  have hfinish : Device.finish (c.close.rescale k).info sink (c.close.rescale k).device =
      Device.finish c.close.info sink c.close.device := rfl
  unfold write
  dsimp only
  rw [hclose, herror, hfinish]
  cases c.close.error with
  | some e => rfl
  | none => cases Device.finish c.close.info sink c.close.device <;> rfl

omit hk in
/-- An operation with all its lengths multiplied. -/
def Operation.rescale (k : ℚ) : Operation ℚ → Operation ℚ
  | .step s => .step (s.rescale k)
  | .write sink => .write sink

theorem rescale_operateAll (operations : List (Operation ℚ)) (c : Canvas ℚ D) :
    (c.rescale k).operateAll (operations.map (Operation.rescale k)) =
      (c.operateAll operations).rescale k := by
  induction operations generalizing c with
  | nil => rfl
  | cons o operations ih =>
      have hfirst : (c.rescale k).operate (o.rescale k) = (c.operate o).rescale k := by
        cases o with
        | step s => exact rescale_step hk s c
        | write sink => exact congrArg Prod.fst (rescale_write hk sink c)
      exact (congrArg (operateAll (operations.map (Operation.rescale k))) hfirst).trans
        (ih (c.operate o))

end Canvas

/-! ## Documents in points -/

theorem LengthUnit.points_pos (u : LengthUnit) : 0 < (u.points : ℚ) := by
  cases u <;> decide +kernel

/-- The same document measured in points. -/
def PageSetup.inPoints (p : PageSetup ℚ) : PageSetup ℚ :=
  { p with
    unit := .point
    customSize := p.customSize.map (·.rescale p.unit.points)
    margins := p.margins.rescale p.unit.points }

theorem PageSetup.pageSize_inPoints (p : PageSetup ℚ) :
    p.inPoints.pageSize = p.pageSize.rescale p.unit.points := by
  have hunit : (p.unit.points : ℚ) ≠ 0 := p.unit.points_pos.ne'
  have hpoint : (LengthUnit.point.points : ℚ) = 1 := Scalar.one_rat
  have hside (a : ℚ) : a / p.unit.points * p.unit.points = a / LengthUnit.point.points := by
    rw [div_mul_cancel₀ a hunit, hpoint, div_one]
  unfold pageSize inPoints
  cases p.customSize with
  | some size => cases p.orientation <;> rfl
  | none =>
      cases p.orientation <;> simp only [Option.map_none, Size.rescale, hside]

namespace Canvas

variable {D Output : Type} [Device ℚ D Output]

omit [Device ℚ D Output] in
/-- What a canvas is set to before anything is done with it is also in the unit of the document. -/
theorem new_inPoints (device : D) (setup : PageSetup ℚ) :
    new device setup.inPoints = (new device setup).rescale setup.unit.points := by
  have hunit : (setup.unit.points : ℚ) ≠ 0 := setup.unit.points_pos.ne'
  have hpoint : (LengthUnit.point.points : ℚ) = 1 := Scalar.one_rat
  have hscale : (LengthUnit.point.points : ℚ) = setup.unit.points / setup.unit.points := by
    rw [div_self hunit, hpoint]
  have hlength (a : ℚ) :
      a / LengthUnit.point.points = a / setup.unit.points * setup.unit.points := by
    rw [div_mul_cancel₀ a hunit, hpoint, div_one]
  have hpart (a b : ℚ) : a * setup.unit.points / b = a / b * setup.unit.points := by
    rw [div_mul_eq_mul_div]
  have hinPoints : setup.inPoints.unit = .point := rfl
  unfold new
  simp only [rescale, Margins.rescale, Graphics.rescale, PageSetup.pageSize_inPoints, Size.rescale,
    hinPoints, hlength, hpart, sub_mul, mul_assoc, Scalar.zero_rat, zero_mul, Option.map_none,
    ← hscale]

/-- Canvases on which the same has been drawn and will be, the second in a unit of which `k` make up
one of the first. -/
structure Converted (k : ℚ) (c d : Canvas ℚ D) : Prop where
  device : d.device = c.device
  calls : d.history = c.history
  pageCount : d.pageCount = c.pageCount
  error : d.error = c.error
  x : d.x = c.x * k
  y : d.y = c.y * k
  margins : d.margins = c.margins.rescale k
  pageSize : d.pageSize = c.pageSize.rescale k
  lineWidth : d.graphics.lineWidth = c.graphics.lineWidth * k
  stringWidth : ∀ text, d.stringWidth text = c.stringWidth text * k
  lines : ∀ cell : Cell ℚ, d.linesOf (cell.rescale k) = c.linesOf cell
  breaks : ∀ height, d.breaksPage (height * k) = c.breaksPage height
  image : ∀ path x y width height,
    (d.image path (x * k) (y * k) (width * k) (height * k)).2 =
      (c.image path x y width height).2.map fun extent ↦ (extent.1 * k, extent.2 * k)
  imageExtent : ∀ path width height, (d.imageExtent path (width * k) (height * k)).2 =
    (c.imageExtent path width height).2.map fun extent ↦ (extent.1 * k, extent.2 * k)
  output : ∀ sink, (d.write sink).2 = (c.write sink).2

theorem Converted.of_rescale {k : ℚ} (hk : 0 < k) (c : Canvas ℚ D) :
    Converted k c (c.rescale k) where
  device := rfl
  calls := rfl
  pageCount := rfl
  error := rfl
  x := rfl
  y := rfl
  margins := rfl
  pageSize := rfl
  lineWidth := rfl
  stringWidth := rescale_stringWidth
  lines := rescale_linesOf hk
  breaks := rescale_breaksPage hk
  image path x y width height :=
    congrArg Prod.snd (rescale_imageWith hk (rescale_hook hk) path x y width height c)
  imageExtent path width height :=
    congrArg Prod.snd (rescale_imageExtentWith hk (rescale_hook hk) path width height c)
  output sink := by rw [rescale_write hk]

/-- A document can be measured in points: the same operations with all their lengths converted draw
the same on it, break lines and pages at the same places and leave the cursor at the same place. -/
theorem operateAll_inPoints (device : D) (setup : PageSetup ℚ) (operations : List (Operation ℚ)) :
    Converted setup.unit.points ((new device setup).operateAll operations)
      ((new device setup.inPoints).operateAll
        (operations.map (Operation.rescale setup.unit.points))) := by
  have hunit : (0 : ℚ) < setup.unit.points := setup.unit.points_pos
  rw [new_inPoints, rescale_operateAll hunit]
  exact .of_rescale hunit _

end Canvas

end PagedReport
