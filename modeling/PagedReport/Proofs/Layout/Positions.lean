import PagedReport.Proofs.Canvas.PageBreaks
import PagedReport.Proofs.Canvas.Restored
import PagedReport.Proofs.Layout.Grid
import PagedReport.Proofs.Text.Lines

/-!
# Texts at positions

A text with a position of its own is put down there, on the page that is there, wherever it is on
the page.  Only where pages break by themselves and the first line would reach below the trigger is
a page begun for it, and then it stands at the top margin, in its place across the page.
-/

namespace PagedReport

/-! ## The first line -/

theorem Wrap.exists_first_line {K : Type} [Scalar K] (max : K) (width : List Char → K)
    (text : List Char) : ∃ line rest, lines max width text = line :: rest ∧
      (line.hardBreak = false → unspaced line.text ≠ []) := by
  obtain ⟨p, ps, hps⟩ := List.exists_cons_of_ne_nil (List.splitOn_ne_nil '\n' text)
  have hlines : lines max width text = paragraphLines max width (chomp p) ++
      (ps.map fun p ↦ paragraphLines max width (chomp p)).flatten := by
    rw [lines_eq_flatten, hps, List.map_cons, List.flatten_cons]
  obtain ⟨soft, last, hgroup⟩ := (paragraphLines_setsOut max width (chomp p)).ends
  obtain ⟨line, group, hline⟩ : ∃ line group,
      paragraphLines max width (chomp p) = line :: group := by
    rw [hgroup]
    exact List.exists_cons_of_ne_nil (by simp)
  rw [hline, List.cons_append] at hlines
  exact ⟨line, _, hlines, unspaced_of_soft (hline ▸ List.mem_cons_self)⟩

namespace Canvas

variable {K D Output : Type} [Scalar K] [Device K D Output]

/-- The line that a cell begins with, wrapped or not. -/
def firstLine (cell : Cell K) (wraps : Bool) (c : Canvas K D) : String :=
  if wraps then ((c.linesOf cell).head?.map fun line ↦ String.ofList line.text).getD ""
  else cell.text

/-- The cell of the line that a cell begins with: a wrapped one has its width before a page is begun
for it. -/
def firstCell (cell : Cell K) (wraps : Bool) (c : Canvas K D) : Cell K :=
  if wraps then { cell with width := c.widthOf cell } else cell

/-- How far from the left side of a cell a line in it begins. -/
def inset (align : Align) (width : K) (line : String) (c : Canvas K D) : K :=
  match align with
  | .right => width - c.cellMargin - c.stringWidth line
  | .center => (width - c.stringWidth line) / 2
  | .left | .justify => c.cellMargin

/-- The height of the baseline in a cell at the cursor. -/
def baseline (height : K) (c : Canvas K D) : K :=
  (c.y + 0.5 * height) * c.scale + 0.3 * c.graphics.font.size

/-- Marks that are a line of text in a cell at the cursor: one text, or words of it on one baseline
if it is spread over the cell. -/
structure LineAt (c : Canvas K D) (align : Align) (width height : K) (line : String)
    (marks : List (Mark K)) : Prop where
  chars : unspaced (marks.flatMap Mark.chars) = unspaced line.toList
  baseline : ∀ x b text key size color, .text x b text key size color ∈ marks →
    b = c.baseline height
  first : line ≠ "" → ∃ text rest, (align ≠ .justify → text = line) ∧ marks =
    .text ((c.x + c.inset align width line) * c.scale) (c.baseline height) text
      c.graphics.font.key c.graphics.font.size c.graphics.textColor :: rest

theorem baseline_textMarks {g : Graphics K} {scale x baseline width : K} {text : String}
    {x' b : K} {text' : String} {key : FontKey} {size : K} {color : Color}
    (h : .text x' b text' key size color ∈ textMarks g scale x baseline text width) :
    b = baseline := by
  rcases List.mem_cons.mp h with heq | hbar
  · exact (Mark.text.inj heq).2.1
  · split at hbar
    · cases List.mem_singleton.mp hbar
    · cases hbar

theorem baseline_wordMarks {g : Graphics K} {scale baseline gap cursor : K}
    {words : List (String × K)} {x' b : K} {text' : String} {key : FontKey} {size : K}
    {color : Color}
    (h : .text x' b text' key size color ∈ wordMarks g scale baseline gap cursor words) :
    b = baseline := by
  induction words generalizing cursor with
  | nil => cases h
  | cons w words ih =>
      rcases List.mem_append.mp h with hword | hrest
      · exact baseline_textMarks hword
      · exact ih hrest

/-- The text of a cell is a line; one that is spread over the cell has a word to begin with. -/
theorem contentMarks_lineAt (cell : Cell K) (justify : Bool) (width : K) (c : Canvas K D)
    (hjustify : justify = true → cell.align = .justify ∧ unspaced cell.text.toList ≠ []) :
    c.LineAt cell.align width cell.height cell.text (c.contentMarks cell justify width) where
  chars := unspaced_contentMarks cell justify width c
  baseline := by
    intro x b text key size color hmem
    unfold contentMarks at hmem
    split at hmem
    · cases hmem
    · split at hmem
      · exact baseline_wordMarks hmem
      · exact baseline_textMarks hmem
  first := by
    intro hline
    have hsome : cell.text.isEmpty = false := by simpa using hline
    unfold contentMarks
    rw [if_neg (by simp [hsome])]
    dsimp only
    by_cases hspread : justify = true
    · obtain ⟨halign, hword⟩ := hjustify hspread
      have hwords : Wrap.words cell.text.toList ≠ [] := by
        intro hnone
        rw [← Wrap.flatten_words, hnone] at hword
        exact hword rfl
      obtain ⟨w, ws, hws⟩ := List.exists_cons_of_ne_nil hwords
      rw [if_pos hspread, measuredWords, hws, halign]
      exact ⟨_, _, fun hne ↦ absurd rfl hne, rfl⟩
    · rw [if_neg hspread]
      exact ⟨_, _, fun _ ↦ rfl, rfl⟩

theorem boxMarks_of_plain {cell : Cell K} (hborder : cell.border = .none)
    (hfill : cell.fill = false) (width : K) (c : Canvas K D) : c.boxMarks cell width = [] := by
  simp [boxMarks, hborder, hfill, Border.none, Border.all]

/-! ## Where a cell is put down -/

/-- The canvas `e` that something of a height is put down on: `c` if there is room, and else one on
which a page was begun, at the top margin of this page. -/
structure MadeRoom (height : K) (c e : Canvas K D) : Prop where
  x : e.x = c.x
  graphics : e.graphics = c.graphics
  stays : c.breaksPage height = false → e = c
  begins : c.breaksPage height = true → e.y = e.margins.top ∧ c.pageCount < e.pageCount ∧
    ∃ footer header, e.calls = c.calls ++ footer ++
      .page ⟨c.pageSize.width * c.scale, c.pageSize.height * c.scale⟩ :: header

section

variable {c : Canvas K D} (he : c.error = none) (hopen : c.closed = false) (hpage : 0 < c.pageCount)

theorem hooks (band : Origin) (c : Canvas K D) : Reaches c (hook band c) :=
  Reaches.hookAt _ band c

theorem Reaches.calls {d : Canvas K D} (h : Reaches c d) : ∃ calls, d.calls = c.calls ++ calls := by
  obtain ⟨ds, hcourse⟩ := h
  exact ⟨_, hcourse.calls_eq⟩

include he hopen hpage

theorem prepareWith_open : prepareWith hook c = (c, true) := by
  simp [prepareWith, he, hopen, Nat.ne_of_gt hpage]

theorem addPageWith_open :
    let d := { (hook .footer c).putPage.home with graphics := c.graphics }
    addPageWith hook c = { hook .header d with graphics := c.graphics }.home := by
  simp [addPageWith, he, hopen, hpage]

theorem turnWith_madeRoom (height : K) : MadeRoom height c (turnWith hook height c) where
  x := turnWith_x hook height c
  graphics := turnWith_graphics hook height c
  stays h := by rw [turnWith, if_neg (by simp [h])]
  begins h := by
    let d : Canvas K D := { (hook .footer c).putPage.home with graphics := c.graphics }
    have hended : Reaches c (hook .footer c) := hooks .footer c
    have hbegun : Reaches d (hook .header d) := hooks .header d
    obtain ⟨footer, hfooter⟩ := hended.calls
    obtain ⟨header, hheader⟩ := hbegun.calls
    have hcalls : d.calls = (hook .footer c).calls ++
        [.page ⟨c.pageSize.width * c.scale, c.pageSize.height * c.scale⟩] := by
      rw [← hended.lasts.pageSize, ← hended.lasts.scale]
      simp [d, Canvas.calls, putPage, note, home]
    have hcount : d.pageCount = (hook .footer c).pageCount + 1 := rfl
    rw [turnWith, if_pos h, addPageWith_open he hopen hpage]
    refine ⟨rfl, ?_, footer, header, ?_⟩
    · change c.pageCount < (hook .header d).pageCount
      have hfirst := hended.lasts.pageCount
      have hsecond := hbegun.lasts.pageCount
      omega
    · change (hook .header d).calls = _
      rw [hheader, hcalls, hfooter]
      simp

/-- A cell without a box puts down its line where it has made room. -/
theorem drawCell_line {cell : Cell K} (hborder : cell.border = .none) (hfill : cell.fill = false)
    (justify : Bool)
    (hjustify : justify = true → cell.align = .justify ∧ unspaced cell.text.toList ≠ []) :
    ∃ e marks, MadeRoom cell.height c e ∧
      e.LineAt cell.align (e.widthOf cell) cell.height cell.text marks ∧
      (drawCellWith hook cell justify c).calls = e.calls ++ marks.map .mark := by
  refine ⟨_, _, turnWith_madeRoom he hopen hpage cell.height,
    contentMarks_lineAt cell justify _ _ hjustify, ?_⟩
  rw [drawCellWith_eq]
  dsimp only
  rw [Canvas.calls, (advance_kept cell _ _).history, ← Canvas.calls, calls_puts, cellMarks,
    boxMarks_of_plain hborder hfill, List.nil_append, puts_nil]

/-- A cell without a box, wrapped or not, begins with its first line where it has made room. -/
theorem step_firstLine (cell : Cell K) (hborder : cell.border = .none) (hfill : cell.fill = false)
    (wraps : Bool) :
    ∃ e marks later, MadeRoom cell.height c e ∧
      e.LineAt cell.align (e.widthOf (c.firstCell cell wraps)) cell.height
        (c.firstLine cell wraps) marks ∧
      (c.step (if wraps then .multiCell cell else .cell cell)).calls =
        e.calls ++ marks.map .mark ++ later := by
  cases wraps with
  | false =>
      obtain ⟨e, marks, hroom, hline, hcalls⟩ :=
        drawCell_line he hopen hpage hborder hfill false nofun
      refine ⟨e, marks, [], hroom, hline, ?_⟩
      have hstep : c.step (.cell cell) = drawCellWith hook cell false c := by
        simp [Canvas.step, stepWith, cellWith, prepareWith_open he hopen hpage]
      exact (congrArg Canvas.calls hstep).trans (hcalls.trans (List.append_nil _).symm)
  | true =>
      obtain ⟨line, rest, hlines, hsoft⟩ := Wrap.exists_first_line
        (c.widthOf cell - 2 * c.cellMargin) (fun cs ↦ c.stringWidth (String.ofList cs))
        cell.text.toList
      let row := lineCell cell (c.widthOf cell) true rest.isEmpty line
      have hrow : row.border = .none ∧ row.fill = false := by
        refine ⟨?_, hfill⟩
        simp [row, lineCell, hborder, Border.ofLine, Border.none]
      have hjustify : (cell.align = .justify && !line.hardBreak) = true →
          row.align = .justify ∧ unspaced row.text.toList ≠ [] := by
        intro h
        simp only [Bool.and_eq_true, decide_eq_true_eq, Bool.not_eq_true'] at h
        exact ⟨h.1, by simpa [row, lineCell] using hsoft h.2⟩
      obtain ⟨e, marks, hroom, hline, hcalls⟩ :=
        drawCell_line he hopen hpage hrow.1 hrow.2 _ hjustify
      let d := drawCellWith hook row (cell.align = .justify && !line.hardBreak) c
      have hrest : Reaches d (drawRows hook cell (c.widthOf cell) c.x false rest d) := by
        refine Reaches.drawRows hooks cell _ _ _ rest ?_
        exact (Reaches.drawCell hooks row _ hpage).onPage hpage
      obtain ⟨later, hlater⟩ := hrest.calls
      have hfirst : c.firstLine cell true = row.text := by
        have hhead : (c.linesOf cell).head? = some line := by rw [linesOf, hlines]; rfl
        rw [firstLine, if_pos rfl, hhead]
        rfl
      have hstep : (c.step (.multiCell cell)).calls =
          (drawRows hook cell (c.widthOf cell) c.x false rest d).calls := by
        simp only [Canvas.step, stepWith, multiCellWith, prepareWith_open he hopen hpage, if_true,
          hlines]
        rfl
      refine ⟨e, marks, later, hroom, hfirst ▸ hline, ?_⟩
      exact hstep.trans (hlater.trans (congrArg (· ++ later) hcalls))

end

end Canvas

/-! ## Elements -/

namespace Layout

open Report Canvas

def wraps (t : Text) : Bool := 0 < t.width || t.wrap

/-- The cell of a text. -/
def textCell (ctx : Context) (t : Text) : Cell Float :=
  { width := if 0 < t.width then t.width else 0
    height := ctx.styles.lineHeight t.style
    text := ctx.resolve t.content
    align := (t.align <|> ctx.styles.align t.style).getD .left
    advance := if wraps t then .right else .nextLine }

/-- A coordinate from the near edge of a page. -/
def fromNear (length extent : Float) : Float := if 0 ≤ length then length else extent + length

variable {D Output : Type} [Device Float D Output]

/-- A canvas with the style of a text, and the cursor where the text asks for. -/
def standing (ctx : Context) (t : Text) (y : Float) (c : Canvas Float D) : Canvas Float D :=
  { c.run (ctx.styles.use t.style) with
    x := (t.x.map (fromNear · c.pageSize.width)).getD c.margins.left
    y := fromNear y c.pageSize.height }

theorem run_text (ctx : Context) (t : Text) (spacing : Float) {y : Float} (hy : t.y = some y)
    (c : Canvas Float D) : c.run (text ctx t spacing) =
      ((standing ctx t y c).step
        (if wraps t then .multiCell (textCell ctx t) else .cell (textCell ctx t))).run
        (space spacing) := by
  obtain ⟨graphics, warnings, hstyle⟩ := run_still (use_still ctx.styles t.style) c
  have hstanding : c.run (ctx.styles.use t.style ++ (t.y.map .setY).toList ++
      (t.x.map .setX).toList) = standing ctx t y c := by
    rw [run_append, run_append, standing, hstyle, hy]
    cases t.x <;> rfl
  have hdraw : text ctx t spacing = ctx.styles.use t.style ++ (t.y.map .setY).toList ++
      (t.x.map .setX).toList ++
        ((if wraps t then .multiCell (textCell ctx t) else .cell (textCell ctx t)) ::
          space spacing) := by
    unfold text textCell wraps
    by_cases hwraps : (0 < t.width || t.wrap) = true
    · simp only [hwraps, if_true]
    · simp only [hwraps]
      rfl
  rw [hdraw, run_append, hstanding]
  rfl

/-- A text with a height of its own begins with its first line at this height and in its place
across, which is the left margin if it has none, behind all that was drawn before and on the same
page: also where the line reaches into the bottom margin, if pages do not break by themselves or a
band is drawn.  Where they do and the line would reach below the trigger, a page is begun and the
line stands in its place across at the top margin of this page. -/
theorem text_at_position (ctx : Context) (t : Text) (spacing : Float) {y : Float}
    (hy : t.y = some y) {c : Canvas Float D} (he : c.error = none) (hopen : c.closed = false)
    (hpage : 0 < c.pageCount) :
    let cell := textCell ctx t
    let top := fromNear y c.pageSize.height
    let d := standing ctx t y c
    let breaks := c.autoBreak = true ∧ c.origin = .body ∧ c.trigger < top + cell.height
    ∃ (e : Canvas Float D) (marks : List (Mark Float)) (later : List (Call Float)),
      (c.run (text ctx t spacing)).calls = e.calls ++ marks.map .mark ++ later ∧
      e.LineAt cell.align (e.widthOf (d.firstCell cell (wraps t))) cell.height
        (d.firstLine cell (wraps t)) marks ∧
      e.x = (t.x.map (fromNear · c.pageSize.width)).getD c.margins.left ∧
      e.graphics = (c.run (ctx.styles.use t.style)).graphics ∧
      (¬ breaks → e.y = top ∧ e.calls = c.calls ∧ e.pageCount = c.pageCount) ∧
      (breaks → e.y = e.margins.top ∧ c.pageCount < e.pageCount ∧ ∃ footer header, e.calls =
        c.calls ++ footer ++
          .page ⟨c.pageSize.width * c.scale, c.pageSize.height * c.scale⟩ :: header) := by
  intro cell top d breaks
  obtain ⟨graphics, warnings, hstyle⟩ := run_still (use_still ctx.styles t.style) c
  have hd : d = { c with graphics, warnings, x := d.x, y := top } := by
    change standing ctx t y c = _
    rw [standing, hstyle]
    rfl
  have hcalls : d.calls = c.calls := by rw [hd]; rfl
  have hpaper : d.pageSize = c.pageSize ∧ d.scale = c.scale ∧ d.pageCount = c.pageCount := by
    rw [hd]
    exact ⟨rfl, rfl, rfl⟩
  have hdraws : d.error = none ∧ d.closed = false ∧ 0 < d.pageCount := by
    rw [hd]
    exact ⟨he, hopen, hpage⟩
  have hbreaks : d.breaksPage cell.height = true ↔ breaks := by
    rw [hd]
    simp [breaksPage, breaks, and_assoc]
  obtain ⟨e, marks, later, hroom, hline, hfirst⟩ := step_firstLine hdraws.1 hdraws.2.1
    hdraws.2.2 cell rfl rfl (wraps t)
  obtain ⟨after, hafter⟩ := (Reaches.run (space spacing) (d.step
    (if wraps t then .multiCell cell else .cell cell))).calls
  refine ⟨e, marks, later ++ after, ?_, hline, hroom.x, hroom.graphics, fun hstays ↦ ?_,
    fun hbegins ↦ ?_⟩
  · rw [run_text ctx t spacing hy]
    refine hafter.trans ?_
    rw [hfirst, List.append_assoc]
  · obtain rfl := hroom.stays (by simpa using mt hbreaks.mp hstays)
    exact ⟨rfl, hcalls, hpaper.2.2⟩
  · obtain ⟨hy, hcount, footer, header, hbegun⟩ := hroom.begins (hbreaks.mpr hbegins)
    rw [hpaper.2.2] at hcount
    rw [hcalls, hpaper.1, hpaper.2.1] at hbegun
    exact ⟨hy, hcount, footer, header, hbegun⟩

/-- A blank page. -/
def blankPage : Canvas Float (Recorder Float) := (Canvas.new Session.blankRecorder default).addPage

def plainContext : Context := { styles := ⟨[]⟩, data := .null }

/-- A text without a style. -/
def note (y : Float) : Text := { content := "here", x := some 100, y := some y }

theorem text_at_position_note : ∃ (e : Canvas Float (Recorder Float)) (marks : List (Mark Float))
    (later : List (Call Float)),
      (blankPage.run (text plainContext (note 200) 0)).calls =
        blankPage.calls ++ marks.map .mark ++ later ∧
      unspaced (marks.flatMap Mark.chars) = "here".toList ∧ e.x = 100 ∧ e.y = 200 := by
  obtain ⟨e, marks, later, hcalls, hline, hx, -, hstays, -⟩ :=
    text_at_position plainContext (note 200) 0 rfl (c := blankPage) rfl rfl (by decide)
  have hroom : ¬ blankPage.trigger <
      fromNear 200 blankPage.pageSize.height + (textCell plainContext (note 200)).height := by
    decide +kernel
  obtain ⟨hy, hsame, -⟩ := hstays fun hbreaks ↦ hroom hbreaks.2.2
  have htop : fromNear 200 blankPage.pageSize.height = 200 := if_pos (by decide +kernel)
  have hleft : fromNear 100 blankPage.pageSize.width = 100 := if_pos (by decide +kernel)
  have htext : (standing plainContext (note 200) 200 blankPage).firstLine
      (textCell plainContext (note 200)) (wraps (note 200)) = "here" := by decide +kernel
  have hchars := hline.chars
  rw [htext] at hchars
  rw [hsame] at hcalls
  exact ⟨e, marks, later, hcalls, hchars, hx.trans hleft, hy.trans htop⟩

/-- A text low on a page is not drawn on this page: the next call is another page. -/
theorem not_text_at_position : ¬ ∀ (ctx : Context) (t : Text) (spacing y : Float)
    (c : Canvas Float (Recorder Float)), t.y = some y → 0 ≤ y → y < c.pageSize.height →
    c.error = none → c.closed = false → 0 < c.pageCount →
    let cell := textCell ctx t
    let d := standing ctx t y c
    d.firstLine cell (wraps t) ≠ "" →
    ∃ marks later, (c.run (text ctx t spacing)).calls = c.calls ++ marks.map .mark ++ later ∧
      d.LineAt cell.align (d.widthOf (d.firstCell cell (wraps t))) cell.height
        (d.firstLine cell (wraps t)) marks := by
  intro hall
  have hpage : (blankPage.run (text plainContext (note 290) 0)).calls[blankPage.calls.length]?.any
      Call.isPage = true := by decide +kernel
  have htext : (standing plainContext (note 290) 290 blankPage).firstLine
      (textCell plainContext (note 290)) (wraps (note 290)) ≠ "" := by decide +kernel
  obtain ⟨marks, later, hcalls, hline⟩ := hall plainContext (note 290) 0 290 blankPage rfl
    (by decide +kernel) (by decide +kernel) rfl rfl (by decide) htext
  obtain ⟨shown, rest, -, rfl⟩ := hline.first htext
  rw [hcalls] at hpage
  simp [Call.isPage] at hpage

end Layout

end PagedReport
