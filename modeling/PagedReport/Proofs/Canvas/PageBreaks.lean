import PagedReport.Proofs.Canvas.Flows
import PagedReport.Proofs.Canvas.Protocol
import PagedReport.Proofs.Canvas.Rescaling

/-!
# Page breaks

A cell of the body that would reach below the trigger begins a page and is put down at its top, and
every other cell is put down where the cursor is.  That is decided for each cell and for each line
of a wrapped cell, whatever the bands draw: these only draw, and on their behalf no page is begun.
-/

namespace PagedReport

open Canvas

variable {K D Output : Type}

/-- Bands that are set by an operation only draw. -/
def Canvas.Operation.PlainBands : Operation K → Prop
  | .step (.decorate header footer) => (⟨header, footer⟩ : Decorator K).Plain
  | _ => True

namespace Canvas

/-! ## Pages in the history -/

section

variable {c d : Canvas K D}

/-- Every page was begun on behalf of the body. -/
def PagesByBody (c : Canvas K D) : Prop :=
  ∀ origin size, (origin, Call.page size) ∈ c.history.toList → origin = .body

theorem PagesByBody.append (hc : PagesByBody c) {entries : List (Origin × Call K)}
    (hd : d.history.toList = c.history.toList ++ entries)
    (hentries : ∀ origin size, (origin, Call.page size) ∈ entries → origin = .body) :
    PagesByBody d := by
  intro origin size hmem
  rw [hd, List.mem_append] at hmem
  exact hmem.elim (hc origin size) (hentries origin size)

theorem not_mem_on {band origin : Origin} {calls : List (Call K)} {size : Size K}
    (hcalls : ∀ size, .page size ∉ calls) : (origin, .page size) ∉ on band calls := by
  intro hmem
  obtain ⟨call, hcall, heq⟩ := List.mem_map.mp hmem
  obtain ⟨-, rfl⟩ := Prod.mk.inj heq
  exact hcalls size hcall

end

variable [Scalar K] [Device K D Output] {c d e : Canvas K D}

/-! ## One cell -/

theorem PageStarted.moved {footer header : List (Call K)} (h : PageStarted footer header c d)
    (x : K) : PageStarted footer header c { d with x } :=
  ⟨h.frame, h.history, h.footer_run, h.header_run, h.footer_no_page, h.header_no_page⟩

/-- The canvas `d` after a cell on `c` that is put down on `e`. -/
structure PutDown (cell : Cell K) (justify : Bool) (c e d : Canvas K D) : Prop where
  /-- There is room for the cell, or it is at the top of a page that it has begun itself. -/
  fits : c.error = none → c.autoBreak = true →
    ¬e.trigger < e.y + cell.height ∨ e.y = e.margins.top ∧ e.pageCount = c.pageCount + 1
  x : e.x = c.x
  /-- A page is begun only for want of room. -/
  page : e = c ∨ c.error = none ∧ c.autoBreak = true ∧ c.trigger < c.y + cell.height ∧
    e.y = c.margins.top ∧ ∃ footer header, PageStarted footer header c e
  drawn : d = (e.puts (e.cellMarks cell justify (e.widthOf cell))).advance cell (e.widthOf cell)
  history : d.history.toList =
    e.history.toList ++ on .body ((e.cellMarks cell justify (e.widthOf cell)).map .mark)

theorem turnWith_cases (hc : c.frame.Sound) (height : K) :
    (turnWith hook height c = c ∧
        (c.error = none → c.autoBreak = true → ¬c.trigger < c.y + height)) ∨
      c.error = none ∧ c.autoBreak = true ∧ c.trigger < c.y + height ∧
        (turnWith hook height c).y = c.margins.top ∧
        ∃ footer header, PageStarted footer header c (turnWith hook height c) := by
  have hbody : c.origin = .body := hc.origin
  have hbreaks : c.breaksPage height = true ↔ c.autoBreak = true ∧ c.trigger < c.y + height := by
    simp [breaksPage, hbody]
  by_cases hover : c.autoBreak = true ∧ c.trigger < c.y + height
  · rw [turnWith, if_pos (hbreaks.mpr hover)]
    cases he : c.error with
    | some failure =>
        have hsame : addPageWith hook c = c := by simp [addPageWith, he]
        rw [hsame]
        exact .inl ⟨rfl, fun hnone ↦ absurd hnone (Option.some_ne_none failure)⟩
    | none =>
        obtain ⟨footer, header, hstarted⟩ := addPage_started hc he
        exact .inr ⟨rfl, hover.1, hover.2, (addPage_home hc he).2.1, footer, header,
          hstarted.moved c.x⟩
  · rw [turnWith, if_neg (mt hbreaks.mp hover)]
    exact .inl ⟨rfl, fun _ hauto htrigger ↦ hover ⟨hauto, htrigger⟩⟩

theorem turnWith_x (hook' : Origin → Canvas K D → Canvas K D) (height : K) (c : Canvas K D) :
    (turnWith hook' height c).x = c.x := by
  unfold turnWith
  split <;> rfl

theorem advance_moves (cell : Cell K) (width : K) (c : Canvas K D) :
    ∃ x y, c.advance cell width = { c with x, y, lastHeight := cell.height } := by
  unfold advance
  dsimp only
  split <;> exact ⟨_, _, rfl⟩

theorem putDown (hc : c.frame.Sound) (cell : Cell K) (justify : Bool) :
    PutDown cell justify c (turnWith hook cell.height c) (drawCellWith hook cell justify c) where
  fits he hauto := by
    rcases turnWith_cases hc cell.height with ⟨heq, hfits⟩ | ⟨-, -, -, hy, footer, header, hstarted⟩
    · rw [heq]
      exact .inl (hfits he hauto)
    · have hmargins := congrArg Frame.margins hstarted.frame
      exact .inr ⟨hy.trans (congrArg Margins.top hmargins).symm,
        congrArg Frame.pageCount hstarted.frame⟩
  x := turnWith_x hook cell.height c
  page := by
    rcases turnWith_cases hc cell.height with ⟨heq, -⟩ | hturned
    · exact .inl heq
    · exact .inr hturned
  drawn := drawCellWith_eq hook cell justify c
  history := by
    have hsound := (turnWith_draws hook cell.height c).sound hc
    rw [drawCellWith_eq]
    generalize turnWith hook cell.height c = e at hsound
    have hbody : e.origin = .body := hsound.origin
    obtain ⟨x, y, heq⟩ := advance_moves cell (e.widthOf cell)
      (e.puts (e.cellMarks cell justify (e.widthOf cell)))
    dsimp only
    rw [heq, puts_eq, hbody]
    simp [markCalls, on]

theorem PutDown.pageCount_le {cell : Cell K} {justify : Bool} (h : PutDown cell justify c e d) :
    d.pageCount ≤ c.pageCount + 1 := by
  have hdrawn : d.pageCount = e.pageCount := by
    obtain ⟨x, y, heq⟩ := advance_moves cell (e.widthOf cell)
      (e.puts (e.cellMarks cell justify (e.widthOf cell)))
    rw [h.drawn, heq, puts_eq]
  rcases h.page with rfl | ⟨-, -, -, -, footer, header, hstarted⟩
  · omega
  · have hpages : e.pageCount = c.pageCount + 1 := congrArg Frame.pageCount hstarted.frame
    omega

/-- A cell without room begins a page. -/
theorem PutDown.begins {cell : Cell K} {justify : Bool} (h : PutDown cell justify c e d)
    (he : c.error = none) (hauto : c.autoBreak = true) (hover : c.trigger < c.y + cell.height) :
    e.pageCount = c.pageCount + 1 ∧ e.y = e.margins.top := by
  rcases h.page with rfl | ⟨-, -, -, hy, footer, header, hstarted⟩
  · rcases h.fits he hauto with hroom | ⟨-, hown⟩
    · exact absurd hover hroom
    · omega
  · have hmargins : e.margins = c.margins := congrArg Frame.margins hstarted.frame
    exact ⟨congrArg Frame.pageCount hstarted.frame, by rw [hy, hmargins]⟩

/-! ## The lines of a wrapped cell -/

/-- A line of a wrapped cell as a cell of its own. -/
def lineCell (cell : Cell K) (width : K) (first last : Bool) (line : WrappedLine) : Cell K :=
  { cell with
    width
    text := String.ofList line.text
    border := cell.border.ofLine first last
    advance := .below }

/-- Lines that are put down one after another, each from `x` on. -/
inductive LinesPut (cell : Cell K) (width x : K) :
    Bool → List WrappedLine → Canvas K D → Canvas K D → Prop
  | nil {first : Bool} {c : Canvas K D} : LinesPut cell width x first [] c c
  | cons {first : Bool} {line : WrappedLine} {lines : List WrappedLine} {c d e f : Canvas K D} :
      PutDown (lineCell cell width first lines.isEmpty line)
        (cell.align = .justify && !line.hardBreak) { c with x } e d →
      LinesPut cell width x false lines d f → LinesPut cell width x first (line :: lines) c f

theorem linesPut (hc : c.frame.Sound) (cell : Cell K) (width x : K) (first : Bool)
    (lines : List WrappedLine) :
    LinesPut cell width x first lines c (drawRows hook cell width x first lines c) := by
  induction lines generalizing first c with
  | nil => exact .nil
  | cons line lines ih =>
      have hmoved : ({ c with x } : Canvas K D).frame.Sound := hc
      obtain ⟨calls, hdraws, -⟩ := drawCellWith_prints hook
        (lineCell cell width first lines.isEmpty line)
        (cell.align = .justify && !line.hardBreak) { c with x }
      exact .cons (putDown hmoved _ _) (ih (hdraws.sound hmoved) false)

theorem LinesPut.pageCount_le {cell : Cell K} {width x : K} {first : Bool}
    {lines : List WrappedLine} (h : LinesPut cell width x first lines c d) :
    d.pageCount ≤ c.pageCount + lines.length := by
  induction h with
  | nil => exact Nat.le_refl _
  | @cons _ _ lines b _ _ _ hput _ ih =>
      have hline : _ ≤ b.pageCount + 1 := hput.pageCount_le
      rw [List.length_cons]
      omega

/-! ## Pages and bands -/

theorem PageStarted.pagesByBody {footer header : List (Call K)}
    (h : PageStarted footer header c d) (hc : PagesByBody c) : PagesByBody d := by
  refine hc.append (h.history.trans (List.append_assoc _ _ _)) fun origin size hmem ↦ ?_
  rcases List.mem_append.mp hmem with hfooter | hmem
  · exact absurd hfooter (not_mem_on h.footer_no_page)
  · rcases List.mem_cons.mp hmem with heq | hheader
    · exact (Prod.mk.inj heq).1
    · exact absurd hheader (not_mem_on h.header_no_page)

theorem PagesByBody.draws (hc : PagesByBody c) {calls : List (Call K)} (h : Draws hook c calls d)
    (hsound : c.frame.Sound) : PagesByBody d := by
  induction h with
  | refl => exact hc
  | pen _ _ _ _ _ _ ih => exact ih
  | load _ _ ih => exact ih
  | mark m _ ih => exact ih.append (by simp [put, note]; rfl) (by simp)
  | image _ _ ih => exact ih.append (by simp [note]; rfl) (by simp)
  | fail failure _ ih => exact ih.append (by rw [fail_history, List.append_nil]) (by simp)
  | @page _ b h _ ih =>
      cases he : b.error with
      | some _ => rwa [addPageWith, he]
      | none =>
          obtain ⟨footer, header, hstarted⟩ := addPage_started (h.sound hsound) he
          exact hstarted.pagesByBody ih

theorem PagesByBody.close (hc : PagesByBody c) (hsound : c.frame.Sound) :
    PagesByBody c.close := by
  have hpaged : PagesByBody c.paged := hc.draws (paged_draws c) hsound
  have hpagedSound := (paged_draws c).sound hsound
  rw [close_eq hsound]
  by_cases hpage : 0 < c.paged.pageCount
  · obtain ⟨footer, hfooter⟩ := hook_drawn hpagedSound hpage .footer (by decide)
    exact hpaged.append hfooter.history fun _ _ hmem ↦ absurd hmem (not_mem_on hfooter.no_page)
  · -- the first page is only missing after an error, and then no band is drawn
    have he : c.paged.error.isSome := by
      cases he : c.paged.error with
      | some _ => rfl
      | none => exact absurd (paged_pageCount hsound he) hpage
    obtain ⟨hidle, -⟩ := hookAt_failed _ .footer c.paged he
    exact hpaged.append (congrArg Array.toList hidle.history |>.trans (List.append_nil _).symm)
      (by simp)

/-! ## All operations -/

/-- A canvas that draws no more or that body and bands draw on, on which no band has begun a
page. -/
structure Orderly (c : Canvas K D) : Prop where
  ready : c.Frozen ∨ c.frame.Sound
  pages : PagesByBody c

namespace Orderly

theorem step (hc : Orderly c) (hsound : c.frame.Sound) {s : Step K}
    (hs : (Operation.step s).PlainBands) : Orderly (c.step s) := by
  -- steps that set the canvas up leave the history alone
  have hset {d : Canvas K D} (hd : d.frame.Sound) (hhistory : d.history = c.history) : Orderly d :=
    ⟨.inr hd, hc.pages.append (by rw [hhistory, List.append_nil]) (by simp)⟩
  have hdraw (hflow : s.InFlow) : Orderly (c.step s) := by
    obtain ⟨calls, hdraws, -⟩ := step_prints hflow hsound
    exact ⟨.inr (hdraws.sound hsound), hc.pages.draws hdraws hsound⟩
  cases s with
  | setMargins | setAutoBreak | setInfo =>
      exact hset ⟨hsound.origin, hsound.isOpen, hsound.plain⟩ rfl
  | decorate header footer =>
      refine hset ⟨hsound.origin, hsound.isOpen, fun bands hbands ↦ ?_⟩ rfl
      obtain rfl := Option.some.inj hbands
      exact hs
  | undecorate => exact hset ⟨hsound.origin, hsound.isOpen, nofun⟩ rfl
  | registerFont family style data =>
      simp only [Canvas.step, stepWith, registerFont]
      cases Device.registerFont (.ofText family style) data c.device with
      | error e => exact hc
      | ok device => exact hset hsound rfl
  | close => exact ⟨.inl (.inr (close_isClosed c)), hc.pages.close hsound⟩
  | addPage => exact hdraw (.inr rfl)
  | setFont | setTextColor | setFillColor | setDrawColor | setLineWidth | setX | setY | lineFeed
  | cell | multiCell | line | rect | image | imageExtent | flowImage | warn =>
      exact hdraw (.inl trivial)

theorem operate (hc : Orderly c) {o : Operation K} (ho : o.PlainBands) :
    Orderly (c.operate o) := by
  rcases hc.ready with hfrozen | hsound
  · obtain ⟨hrests, herror⟩ := operate_frozen hfrozen o
    refine ⟨.inl (hrests.frozen hfrozen herror), ?_⟩
    rw [PagesByBody, hrests.history]
    exact hc.pages
  · cases o with
    | step s => exact hc.step hsound ho
    | write sink =>
        have hclosed : Orderly c.close := ⟨.inl (.inr (close_isClosed c)), hc.pages.close hsound⟩
        unfold Canvas.operate write
        dsimp only
        split
        · exact hclosed
        · split
          · exact hclosed
          · exact ⟨.inl (.inr (close_isClosed c)), hclosed.pages⟩

theorem operateAll {operations : List (Operation K)} (hbands : ∀ o ∈ operations, o.PlainBands)
    (hc : Orderly c) : Orderly (c.operateAll operations) := by
  induction operations generalizing c with
  | nil => exact hc
  | cons o operations ih =>
      obtain ⟨ho, hrest⟩ := List.forall_mem_cons.mp hbands
      exact ih hrest (hc.operate ho)

end Orderly

/-- On behalf of a band no step that draws begins a page. -/
theorem stepWith_band (hook' : Origin → Canvas K D → Canvas K D) {s : Step K} (hs : s.Plain)
    (hband : c.origin ≠ .body) (hpage : 0 < c.pageCount) :
    (stepWith hook' s c).pageCount = c.pageCount := by
  obtain ⟨calls, hdraws, -⟩ := stepWith_prints hook' hs c
  exact congrArg Frame.pageCount (hdraws.in_band hband hpage).1

/-- Whatever was done before with a canvas whose bands only draw, a cell of the body has room where
it is put down or is at the top of a page that it has begun itself, and so is each line of a wrapped
cell; a page is begun only where automatic breaks are on and there is no room, at most one for each.
The place across stays, and the marks of a cell come one after another behind the page that it has
begun.  No page is ever begun on behalf of a band, and no step that draws begins one there. -/
theorem operateAll_breaks (device : D) (setup : PageSetup K) {operations : List (Operation K)}
    (hbands : ∀ o ∈ operations, o.PlainBands) :
    let c := (new device setup).operateAll operations
    (c.error = none → 0 < c.pageCount → c.closed = false → ∀ cell : Cell K,
      (∃ e, PutDown cell false c e (c.step (.cell cell)) ∧
        (c.step (.cell cell)).pageCount ≤ c.pageCount + 1) ∧
      ∃ d, LinesPut cell (c.widthOf cell) c.x true (c.linesOf cell) c d ∧
        c.step (.multiCell cell) = { d with x := d.margins.left } ∧
        d.pageCount ≤ c.pageCount + (c.linesOf cell).length) ∧
    (c.closed = true → ∀ cell : Cell K, c.step (.cell cell) = c.fail .closed ∧
      c.step (.multiCell cell) = c.fail .closed) ∧
    (∀ origin size, (origin, .page size) ∈ c.history.toList → origin = .body) ∧
    ∀ (depth : Nat) (b : Canvas K D) (s : Step K), s.Plain → b.origin ≠ .body → 0 < b.pageCount →
      (stepWith (hookAt depth) s b).pageCount = b.pageCount := by
  intro c
  have hnew : Orderly (new device setup) := ⟨.inr ⟨rfl, rfl, nofun⟩, by simp [PagesByBody, new]⟩
  have hc : Orderly c := hnew.operateAll hbands
  refine ⟨fun he hpage hopen cell ↦ ?_, fun hclosed cell ↦ ?_, hc.pages,
    fun depth b s hs hband hpage ↦ stepWith_band _ hs hband hpage⟩
  · have hsound : c.frame.Sound := hc.ready.resolve_left (by simp [Frozen, he, hopen])
    have hbegun : Begun c := ⟨hsound, Nat.ne_of_gt hpage, he⟩
    constructor
    · have heq : c.step (.cell cell) = drawCellWith hook cell false c := by
        simp [Canvas.step, stepWith, cellWith, hbegun.prepareWith]
      have hput := putDown hsound cell false
      rw [heq]
      exact ⟨_, hput, hput.pageCount_le⟩
    · have hlines := linesPut hsound cell (c.widthOf cell) c.x true (c.linesOf cell)
      refine ⟨_, hlines, ?_, hlines.pageCount_le⟩
      simp only [Canvas.step, stepWith, multiCellWith, hbegun.prepareWith, if_true]
      rfl
  · exact ⟨stepWith_draws_frozen hook (.inr hclosed) rfl,
      stepWith_draws_frozen hook (.inr hclosed) rfl⟩

/-- The second page of minutes, whose bands are cells too, near its end. -/
def minutes : List (Operation ℚ) :=
  [.step (.decorate [.cell { width := 0, height := 10, text := "Minutes" }]
      [.setY (-15), .cell { width := 0, height := 10, text := "Draft" }]),
    .step .addPage, .step .addPage, .step (.setY 270), .step (.setX 25)]

theorem operateAll_breaks_minutes :
    let c := (new ({ files := fun _ ↦ .error .notFound } : Recorder ℚ) default).operateAll minutes
    (∀ o ∈ minutes, o.PlainBands) ∧ c.pageCount = 2 ∧
      ∀ cell : Cell ℚ, cell.height = 12 →
        ∃ e, PutDown cell false c e (c.step (.cell cell)) ∧
          e.pageCount = 3 ∧ e.x = 25 ∧ e.y = e.margins.top := by
  intro c
  have hbands : ∀ o ∈ minutes, o.PlainBands := by
    simp only [minutes, List.forall_mem_cons, Operation.PlainBands]
    exact ⟨⟨by simp [Step.Plain], by simp [Step.Plain]⟩, by simp⟩
  obtain ⟨hcell, -⟩ := operateAll_breaks
    ({ files := fun _ ↦ .error .notFound } : Recorder ℚ) default hbands
  have he : c.error = none := by decide +kernel
  have hpages : c.pageCount = 2 := by decide +kernel
  have hopen : c.closed = false := by decide +kernel
  have hauto : c.autoBreak = true := by decide +kernel
  have hx : c.x = 25 := by decide +kernel
  have hover : c.trigger < c.y + 12 := by decide +kernel
  refine ⟨hbands, hpages, fun cell hheight ↦ ?_⟩
  obtain ⟨⟨e, hput, -⟩, -⟩ := hcell he (by rw [hpages]; decide) hopen cell
  obtain ⟨hpage, hy⟩ := hput.begins he hauto (by rw [hheight]; exact hover)
  exact ⟨e, hput, by rw [hpage, hpages], hput.x.trans hx, hy⟩

end Canvas

end PagedReport
