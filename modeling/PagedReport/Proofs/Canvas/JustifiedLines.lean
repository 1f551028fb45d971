import PagedReport.Proofs.Canvas.Covariance
import PagedReport.Proofs.Canvas.PageBreaks
import PagedReport.Proofs.Canvas.Restored
import PagedReport.Proofs.Text.SpreadWords

/-!
# Justified lines

In a justified cell whose inside has some width, a line that does not end its paragraph reaches from
one side of the inside to the other, on whatever page it is put down, and a line that ends one is a
text at the left side.  Line breaking measures a line as one text and justification measures its
words, so the widths have to add up; those of the standard fonts do.
-/

namespace PagedReport

open Canvas

/-- A text among marks: where it starts, its baseline and its characters. -/
def Mark.run? {K : Type} : Mark K → Option (K × K × String)
  | .text x baseline t _ _ _ => some (x, baseline, t)
  | _ => none

theorem Mark.run?_eq_none {K : Type} {m : Mark K} (h : m.font? = none) : m.run? = none := by
  cases m with
  | text => cases h
  | _ => rfl

namespace Canvas

variable {D Output : Type} [Device ℚ D Output]

/-! ## Lengths that stay positive -/

structure Sized (c : Canvas ℚ D) : Prop where
  scale : 0 < c.scale
  cellMargin : 0 < c.cellMargin
  fontSize : 0 < c.graphics.font.size

theorem Course.fontSize_pos {c d : Canvas ℚ D} {ds : List (Demand ℚ)} (h : Course c ds d)
    (hc : 0 < c.graphics.font.size) : 0 < d.graphics.font.size := by
  induction h with
  | trans _ _ ih ih' => exact ih' (ih hc)
  | kept hkept =>
      rw [hkept.font]
      exact hc
  | setFont family style size c =>
      rw [setFont_graphics]
      simp only [restyled, Scalar.zero_rat]
      split
      · next hsize => exact hsize
      · exact hc
  | restore _ _ => exact hc
  | serve _ _ => exact hc
  | page c => exact hc
  | draw _ _ _ _ => exact hc
  | content cell justify width _ =>
      rw [puts_graphics]
      exact hc

theorem Sized.reaches {c d : Canvas ℚ D} (hc : Sized c) (h : Reaches c d) : Sized d where
  scale := h.lasts.scale ▸ hc.scale
  cellMargin := h.lasts.cellMargin ▸ hc.cellMargin
  fontSize := by
    obtain ⟨ds, hcourse⟩ := h
    exact hcourse.fontSize_pos hc.fontSize

omit [Device ℚ D Output] in
theorem sized_new (device : D) (setup : PageSetup ℚ) : Sized (new device setup) where
  scale := setup.unit.points_pos
  cellMargin := by
    have hmargin : (0 : ℚ) < Scalar.decimal 2835 2 := by decide +kernel
    have hten : (0 : ℚ) < Scalar.whole 10 := by decide +kernel
    exact div_pos (div_pos hmargin setup.unit.points_pos) hten
  fontSize := by
    have htwelve : (0 : ℚ) < Scalar.whole 12 := by decide +kernel
    exact htwelve

theorem operateAll_sized (device : D) (setup : PageSetup ℚ) (operations : List (Operation ℚ)) :
    Sized ((new device setup).operateAll operations) :=
  operateAll_keeps (fun h hc ↦ hc.reaches h) (fun _ hc ↦ ⟨hc.scale, hc.cellMargin, hc.fontSize⟩)
    operations (sized_new device setup)

/-! ## Widths that add up -/

/-- On all canvases that come of `c` and have its font, a text is as wide as its characters
together. -/
structure Additive (charWidth : Char → ℚ) (c : Canvas ℚ D) : Prop where
  nonneg : ∀ ch, 0 ≤ charWidth ch
  width : ∀ d, Reaches c d → d.graphics.font = c.graphics.font →
    ∀ text, d.stringWidth text = Wrap.across charWidth text.toList

/-- The width of a character of a standard font, in document units. -/
def standardWidth (f : StandardFont) (c : Canvas ℚ D) (ch : Char) : ℚ :=
  f.charWidth ch * (c.graphics.font.size / 1000 / c.scale)

theorem across_standardWidth (f : StandardFont) (c : Canvas ℚ D) (cs : List Char) :
    Wrap.across (c.standardWidth f) cs =
      (cs.foldr (fun ch total ↦ f.charWidth ch + total) 0 : ℕ) *
        (c.graphics.font.size / 1000 / c.scale) := by
  induction cs with
  | nil => simp [Wrap.across]
  | cons ch cs ih =>
      have hcons : Wrap.across (c.standardWidth f) (ch :: cs) =
          c.standardWidth f ch + Wrap.across (c.standardWidth f) cs := List.sum_cons
      rw [hcons, ih, List.foldr_cons, Nat.cast_add, add_mul, standardWidth]

/-- The widths of a standard font add up. -/
theorem Sized.additive {c : Canvas ℚ D} (hc : Sized c) {f : StandardFont}
    (hf : StandardFont.ofKey? c.graphics.font.key = some f) : Additive (c.standardWidth f) c where
  nonneg ch := by
    have hem : 0 ≤ c.graphics.font.size / 1000 := div_nonneg hc.fontSize.le (by norm_num)
    exact mul_nonneg (Nat.cast_nonneg _) (div_nonneg hem hc.scale.le)
  width d hd hfont text := by
    have hthousand : @OfNat.ofNat ℚ 1000 (Scalar.instOfNat 1000) = 1000 := Scalar.whole_rat 1000
    rw [stringWidth, fontWidth, hfont, hf, hd.lasts.scale, across_standardWidth]
    simp only [Scalar.whole_rat, hthousand, StandardFont.textWidth]
    ring

theorem Additive.reaches {charWidth : Char → ℚ} {c d : Canvas ℚ D} (h : Additive charWidth c)
    (hd : Reaches c d) (hfont : d.graphics.font = c.graphics.font) : Additive charWidth d where
  nonneg := h.nonneg
  width e he heq := h.width e (hd.trans he) (heq.trans hfont)

/-! ## The runs of a cell -/

theorem runs_textMarks (g : Graphics ℚ) (scale x baseline : ℚ) (text : String) (width : ℚ) :
    (textMarks g scale x baseline text width).filterMap Mark.run? = [(x, baseline, text)] := by
  unfold textMarks
  split <;> rfl

theorem runs_wordMarks (g : Graphics ℚ) (scale baseline gap cursor : ℚ)
    (width : List Char → ℚ) (ws : Wrap.Words) :
    (wordMarks g scale baseline gap cursor (ws.map fun w ↦ (String.ofList w, width w))).filterMap
        Mark.run? =
      (Wrap.spread width gap cursor ws).map fun run ↦
        (run.1 * scale, baseline, String.ofList run.2) := by
  induction ws generalizing cursor with
  | nil => rfl
  | cons w ws ih =>
      rw [List.map_cons, wordMarks, List.filterMap_append, runs_textMarks, ih, Wrap.spread,
        List.map_cons, List.singleton_append]

theorem runs_boxMarks (cell : Cell ℚ) (width : ℚ) (c : Canvas ℚ D) :
    (c.boxMarks cell width).filterMap Mark.run? = [] :=
  List.filterMap_eq_nil_iff.mpr fun _ hm ↦ Mark.run?_eq_none (font?_boxMarks hm)

/-- Without justification the text of a cell is one run. -/
theorem runs_contentMarks_left {cell : Cell ℚ} (hcell : cell.align = .justify) (width : ℚ)
    (c : Canvas ℚ D) : ∃ baseline, (c.contentMarks cell false width).filterMap Mark.run? =
      if cell.text.isEmpty then [] else
        [((c.x + c.cellMargin) * c.scale, baseline, cell.text)] := by
  unfold contentMarks
  split
  · exact ⟨0, rfl⟩
  · rw [if_neg Bool.false_ne_true, hcell]
    exact ⟨_, runs_textMarks _ _ _ _ _ _⟩

section

variable {charWidth : Char → ℚ} {c : Canvas ℚ D}
  (hwidth : ∀ text, c.stringWidth text = Wrap.across charWidth text.toList)

include hwidth

theorem measuredWords_eq (text : String) :
    c.measuredWords text =
      (Wrap.words text.toList).map fun w ↦ (String.ofList w, Wrap.across charWidth w) := by
  simp only [measuredWords, List.map_map, Function.comp_def, hwidth, String.toList_ofList]

/-- The gap of a justified cell is the even one for its inside. -/
theorem wordGap_eq (ws : Wrap.Words) (width : ℚ) :
    c.wordGap (ws.map fun w ↦ (String.ofList w, Wrap.across charWidth w)) width =
      Wrap.evenGap (Wrap.across charWidth) (width - 2 * c.cellMargin) ws := by
  have hsum : ((ws.map fun w ↦ (String.ofList w, Wrap.across charWidth w)).map (·.2)).foldl
      (· + ·) 0 = (ws.map (Wrap.across charWidth)).sum := by
    rw [List.map_map, List.sum_eq_foldl]
    rfl
  simp only [wordGap, Wrap.evenGap, List.length_map, Scalar.whole_rat, Scalar.zero_rat,
    Scalar.two_rat, hsum, hwidth]
  rfl

/-- With justification the words of a cell are spread over its inside. -/
theorem runs_contentMarks_spread (cell : Cell ℚ) (width : ℚ) :
    ∃ baseline, (c.contentMarks cell true width).filterMap Mark.run? =
      (Wrap.spread (Wrap.across charWidth)
        (Wrap.evenGap (Wrap.across charWidth) (width - 2 * c.cellMargin)
          (Wrap.words cell.text.toList))
        (c.x + c.cellMargin) (Wrap.words cell.text.toList)).map fun run ↦
          (run.1 * c.scale, baseline, String.ofList run.2) := by
  unfold contentMarks
  split
  · next hempty =>
      rw [String.isEmpty_iff.mp hempty]
      exact ⟨0, rfl⟩
  · rw [if_pos rfl, measuredWords_eq hwidth, wordGap_eq hwidth]
    exact ⟨_, runs_wordMarks _ _ _ _ _ _ _⟩

end

/-! ## One line -/

/-- The marks of a line between two sides: a line that ends a paragraph is one run at the left side,
or none if it has no text, and the words of any other line reach from side to side.  All runs stand
on one baseline. -/
structure LineJustified (charWidth : Char → ℚ) (scale left right : ℚ) (line : WrappedLine)
    (marks : List (Mark ℚ)) : Prop where
  ends : line.hardBreak = true → ∃ baseline, marks.filterMap Mark.run? =
    if line.text = [] then [] else [(left * scale, baseline, String.ofList line.text)]
  goesOn : line.hardBreak = false → ∃ baseline runs,
    runs.map (·.2) = Wrap.words line.text ∧
    Wrap.Flush (Wrap.across charWidth) left right runs ∧
    marks.filterMap Mark.run? =
      runs.map fun run ↦ (run.1 * scale, baseline, String.ofList run.2)

theorem lineJustified {charWidth : Char → ℚ} {c : Canvas ℚ D} (hc : Additive charWidth c)
    (hpage : 0 < c.pageCount) {row : Cell ℚ} (halign : row.align = .justify) {line : WrappedLine}
    (htext : row.text = String.ofList line.text) {width : ℚ}
    (hline : Wrap.Fitting (Wrap.across charWidth) (width - 2 * c.cellMargin) line) :
    LineJustified charWidth c.scale (c.x + c.cellMargin) (c.x + width - c.cellMargin) line
      (c.cellMarks row (!line.hardBreak) width) := by
  -- the box holds no text and leaves the canvas as it is, but for its device
  let e := c.puts (c.boxMarks row width)
  have he : Reaches c e := Reaches.puts (fun m hm ↦ font?_boxMarks hm) hpage
  have hx : e.x = c.x := by simp only [e, puts_eq]
  have hscale : e.scale = c.scale := puts_scale _ c
  have hmargin : e.cellMargin = c.cellMargin := he.lasts.cellMargin
  have hwidth := hc.width e he (congrArg Graphics.font (puts_graphics _ c))
  have hruns (justify : Bool) : (c.cellMarks row justify width).filterMap Mark.run? =
      (e.contentMarks row justify width).filterMap Mark.run? := by
    rw [cellMarks, List.filterMap_append, runs_boxMarks, List.nil_append]
  constructor
  · intro hhard
    obtain ⟨baseline, heq⟩ := runs_contentMarks_left halign width e
    refine ⟨baseline, ?_⟩
    rw [hruns, hhard, Bool.not_true, heq, hx, hmargin, hscale, htext]
    simp
  · intro hsoft
    obtain ⟨hspaced, hfits⟩ := hline hsoft
    obtain ⟨baseline, heq⟩ := runs_contentMarks_spread hwidth row width
    have hroom : width - 2 * c.cellMargin = c.x + width - c.cellMargin - (c.x + c.cellMargin) := by
      ring
    rw [hx, hmargin, hscale, htext, String.toList_ofList, hroom] at heq
    rw [hroom] at hfits
    refine ⟨baseline, _, Wrap.map_snd_spread, Wrap.flush_spread hc.nonneg fun hseveral ↦ ?_, ?_⟩
    · rw [← hspaced]
      exact hfits hseveral
    · rw [hruns, hsoft, Bool.not_false, heq]

/-! ## The lines of a cell -/

section

variable (hook' : Origin → Canvas ℚ D → Canvas ℚ D) (charWidth : Char → ℚ) (cell : Cell ℚ)

/-- Lines of a cell at the cursor of `c`, put down one after another, each on the page that it turns
to. -/
inductive LinesJustified (c : Canvas ℚ D) :
    Bool → List WrappedLine → Canvas ℚ D → Canvas ℚ D → Prop
  | nil {first : Bool} {d : Canvas ℚ D} : LinesJustified c first [] d d
  | cons {first : Bool} {line : WrappedLine} {lines : List WrappedLine} {d e f : Canvas ℚ D}
      {marks : List (Mark ℚ)} :
      e = turnWith hook' cell.height { d with x := c.x } →
      LineJustified charWidth c.scale (c.x + c.cellMargin) (c.x + c.widthOf cell - c.cellMargin)
        line marks →
      LinesJustified c false lines
        ((e.puts marks).advance (lineCell cell (c.widthOf cell) first lines.isEmpty line)
          (c.widthOf cell)) f →
      LinesJustified c first (line :: lines) d f

end

theorem widthOf_of_ne_zero {cell : Cell ℚ} (h : cell.width ≠ 0) (c : Canvas ℚ D) :
    c.widthOf cell = cell.width := by
  rw [widthOf, Scalar.zero_rat, if_neg (by simpa using h)]

theorem linesJustified {hook' : Origin → Canvas ℚ D → Canvas ℚ D}
    (hhook : ∀ band c, Reaches c (hook' band c)) {charWidth : Char → ℚ} {c : Canvas ℚ D}
    (hc : Additive charWidth c) {cell : Cell ℚ} (halign : cell.align = .justify)
    (hcell : c.widthOf cell ≠ 0) (first : Bool) {lines : List WrappedLine}
    (hlines : ∀ line ∈ lines, Wrap.Fitting (Wrap.across charWidth)
      (c.widthOf cell - 2 * c.cellMargin) line)
    {d : Canvas ℚ D} (hd : Reaches c d) (hgraphics : d.graphics = c.graphics)
    (hpage : 0 < d.pageCount) :
    LinesJustified hook' charWidth cell c first lines d
      (drawRows hook' cell (c.widthOf cell) c.x first lines d) := by
  -- every line begins on a canvas that comes of `c` and has its font
  induction lines generalizing first d with
  | nil => exact .nil
  | cons line lines ih =>
      obtain ⟨hline, hrest⟩ := List.forall_mem_cons.mp hlines
      let row := lineCell cell (c.widthOf cell) first lines.isEmpty line
      let moved : Canvas ℚ D := { d with x := c.x }
      let e := turnWith hook' cell.height moved
      have hmoved : Reaches c moved := hd.andThen ⟨rfl, rfl, rfl, rfl, .of_eq rfl rfl⟩
      have hturned : Reaches moved e := .turn hhook cell.height moved
      have he : Reaches c e := hmoved.trans hturned
      have hfont : e.graphics = c.graphics := (turnWith_graphics hook' _ _).trans hgraphics
      have hx : e.x = c.x := turnWith_x hook' cell.height moved
      have hadd : Additive charWidth e := hc.reaches he (congrArg Graphics.font hfont)
      have hrowAlign : row.align = .justify := halign
      have hset := lineJustified hadd (hturned.onPage hpage) hrowAlign rfl
        (he.lasts.cellMargin ▸ hline)
      rw [he.lasts.scale, hx, he.lasts.cellMargin] at hset
      have hdrawn : drawCellWith hook' row (!line.hardBreak) moved =
          (e.puts (e.cellMarks row (!line.hardBreak) (c.widthOf cell))).advance row
            (c.widthOf cell) := by
        rw [drawCellWith_eq]
        dsimp only
        rw [widthOf_of_ne_zero hcell]
        rfl
      have hjustify : (cell.align = .justify && !line.hardBreak) = !line.hardBreak := by
        simp [halign]
      have hrow : Reaches d (drawCellWith hook' row (!line.hardBreak) moved) :=
        .drawRow hhook c.x row _ hpage
      refine .cons rfl hset ?_
      rw [drawRows, hjustify, ← hdrawn]
      exact ih false hrest (hd.trans hrow)
        ((drawCellWith_graphics hook' row _ moved).trans hgraphics) (hrow.onPage hpage)

/-- Whatever was done before with a canvas, and whatever its bands do, the lines of a justified cell
whose inside has some width are put down between the sides of the inside.  A line that ends a
paragraph is one run at the left side.  In any other line the first word starts at the left side,
the last of several words ends at the right side, the gaps between words are all the same and no
narrower than a space, and no words overlap.  That holds in any font in which widths add up, and in
the standard fonts they do. -/
theorem multiCell_justified (device : D) (setup : PageSetup ℚ) (operations : List (Operation ℚ))
    {hook' : Origin → Canvas ℚ D → Canvas ℚ D} (hhook : ∀ band c, Reaches c (hook' band c))
    {c d : Canvas ℚ D} (hc : Reaches ((new device setup).operateAll operations) c)
    (hd : prepareWith hook' c = (d, true)) :
    (∀ f, StandardFont.ofKey? d.graphics.font.key = some f → Additive (d.standardWidth f) d) ∧
    ∀ charWidth, Additive charWidth d → ∀ cell : Cell ℚ, cell.align = .justify →
      0 < d.widthOf cell - 2 * d.cellMargin →
      ∃ e, LinesJustified hook' charWidth cell d true (d.linesOf cell) d e ∧
        stepWith hook' (.multiCell cell) c = { e with x := e.margins.left } := by
  have hprepared : Reaches c d := by
    have hfirst := Reaches.prepare hhook c
    rwa [hd] at hfirst
  have hsized := ((operateAll_sized device setup operations).reaches hc).reaches hprepared
  refine ⟨fun f hf ↦ hsized.additive hf, fun charWidth hadd cell halign hroom ↦ ?_⟩
  have hwidth : d.widthOf cell ≠ 0 := by
    have hmargin := hsized.cellMargin
    linarith
  have hmeasure : (fun cs ↦ d.stringWidth (String.ofList cs)) = Wrap.across charWidth := by
    funext cs
    rw [hadd.width d (.refl d) rfl, String.toList_ofList]
  have hpage : 0 < d.pageCount := by
    have hpossible : (prepareWith hook' c).2 = true := by rw [hd]
    simpa only [hd] using Reaches.prepare_pageCount hhook hpossible
  refine ⟨_, linesJustified hhook hadd halign hwidth true (fun line hline ↦ ?_) (.refl d) rfl hpage,
    ?_⟩
  · rw [linesOf, hmeasure, Scalar.two_rat] at hline
    exact Wrap.fitting_of_mem_lines hline
  · rw [stepWith, multiCellWith, hd]
    rfl

/-- A text in a narrow column. -/
def notice : Cell ℚ :=
  { width := 40, height := 6, align := .justify, text := "Words go from side to side.\nNot these." }

/-- Pages with a title and a number. -/
def titled : List (Operation ℚ) :=
  [.step (.decorate [.cell { width := 0, height := 10, text := "Title" }]
      [.setY (-15), .cell { width := 0, height := 10, text := "1" }]),
    .step .addPage, .step (.setX 25)]

theorem multiCell_justified_notice :
    let c := (new ({ files := fun _ ↦ .error .notFound } : Recorder ℚ) default).operateAll titled
    let f : StandardFont := ⟨.helvetica, .regular⟩
    c.linesOf notice = [⟨"Words go from side".toList, false⟩, ⟨"to side.".toList, true⟩,
        ⟨"Not these.".toList, true⟩] ∧
      prepareWith hook c = (c, true) ∧ Additive (c.standardWidth f) c ∧
      0 < c.widthOf notice - 2 * c.cellMargin ∧
      ∃ e, LinesJustified hook (c.standardWidth f) notice c true (c.linesOf notice) c e ∧
        c.step (.multiCell notice) = { e with x := e.margins.left } := by
  intro c f
  have hlines : c.linesOf notice = [⟨"Words go from side".toList, false⟩,
      ⟨"to side.".toList, true⟩, ⟨"Not these.".toList, true⟩] := by decide +kernel
  have hready : prepareWith hook c = (c, true) := by
    have he : c.error = none := by decide +kernel
    have hpages : c.pageCount = 1 := by decide +kernel
    have hopen : c.closed = false := by decide +kernel
    simp [prepareWith, he, hpages, hopen]
  have hfont : StandardFont.ofKey? c.graphics.font.key = some f := by decide +kernel
  have hroom : 0 < c.widthOf notice - 2 * c.cellMargin := by decide +kernel
  obtain ⟨hstandard, hjustified⟩ := multiCell_justified
    ({ files := fun _ ↦ .error .notFound } : Recorder ℚ) default titled
    (fun band c ↦ .hookAt _ band c) (.refl c) hready
  have hadd := hstandard f hfont
  exact ⟨hlines, hready, hadd, hroom, hjustified _ hadd notice rfl hroom⟩

end Canvas

end PagedReport
