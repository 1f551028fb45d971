import PagedReport.Proofs.Canvas.Moves

/-!
# Bands and pages

A band whose steps draw adds its own calls to the history and leaves the frame of the canvas as it
is: in a band nothing starts a page.  So a band is nothing but its steps, one after another, and
starting a page draws the footer of the page before and the header of the new one, each once and as
a whole.
-/

namespace PagedReport

variable {K D Output : Type}

/-- A decorator whose steps only draw. -/
structure Decorator.Plain (d : Decorator K) : Prop where
  header : ∀ s ∈ d.header, s.Plain
  footer : ∀ s ∈ d.footer, s.Plain

/-- What holds of the steps of both bands holds of those of each. -/
theorem Canvas.bandSteps_forall {P : Step K → Prop} {d : Decorator K}
    (hheader : ∀ s ∈ d.header, P s) (hfooter : ∀ s ∈ d.footer, P s) (band : Origin) :
    ∀ s ∈ bandSteps d band, P s := by
  cases band with
  | body => exact fun s hs ↦ absurd hs List.not_mem_nil
  | header => exact hheader
  | footer => exact hfooter

def Step.InFlow (s : Step K) : Prop := s.Plain ∨ s = .addPage

/-- What drawing leaves alone until a page starts. -/
structure Frame (K : Type) where
  scale : K
  pageSize : Size K
  margins : Margins K
  cellMargin : K
  autoBreak : Bool
  trigger : K
  pageCount : Nat
  decorator : Option (Decorator K)
  origin : Origin
  info : DocumentInfo
  closed : Bool

/-- A frame on behalf of the body, open, with bands that only draw. -/
structure Frame.Sound (f : Frame K) : Prop where
  origin : f.origin = .body
  isOpen : f.closed = false
  plain : ∀ d, f.decorator = some d → d.Plain

theorem Frame.Sound.of_eq {f g : Frame K} (hf : f.Sound) {pageCount : Nat}
    (h : g = { f with pageCount }) : g.Sound := by
  rw [h]
  exact ⟨hf.origin, hf.isOpen, hf.plain⟩

def Frame.deviceSize [Scalar K] (f : Frame K) : Size K :=
  ⟨f.pageSize.width * f.scale, f.pageSize.height * f.scale⟩

namespace Canvas

def frame (c : Canvas K D) : Frame K :=
  { scale := c.scale
    pageSize := c.pageSize
    margins := c.margins
    cellMargin := c.cellMargin
    autoBreak := c.autoBreak
    trigger := c.trigger
    pageCount := c.pageCount
    decorator := c.decorator
    origin := c.origin
    info := c.info
    closed := c.closed }

/-- Calls made on behalf of one part of the page. -/
def on (o : Origin) (calls : List (Call K)) : List (Origin × Call K) := calls.map (o, ·)

@[simp] theorem on_nil (o : Origin) : on o ([] : List (Call K)) = [] := rfl

theorem fail_frame (e : CanvasError) (c : Canvas K D) : (c.fail e).frame = c.frame := by
  unfold fail; split <;> rfl

theorem fail_history (e : CanvasError) (c : Canvas K D) : (c.fail e).history = c.history := by
  unfold fail; split <;> rfl

theorem filter_on {o : Origin} (ho : o ≠ .body) (calls : List (Call K)) :
    (on o calls).filter (·.1 = .body) = [] := by
  simp [on, ho]

/-- What was drawn on behalf of the body, and the pages that were started. -/
def bodyCalls (c : Canvas K D) : List (Call K) :=
  (c.history.toList.filter (·.1 = .body)).map (·.2)

theorem bodyCalls_note (device : D) (call : Call K) {c : Canvas K D} (hc : c.origin = .body) :
    ({ c with device }.note call).bodyCalls = c.bodyCalls ++ [call] := by
  simp [bodyCalls, note, hc]

/-- What drawing a band does to a canvas. -/
structure BandDrawn (band : Origin) (calls : List (Call K)) (c d : Canvas K D) : Prop where
  frame : d.frame = c.frame
  history : d.history.toList = c.history.toList ++ on band calls
  no_page : ∀ size, .page size ∉ calls

theorem BandDrawn.bodyCalls {band : Origin} {calls : List (Call K)} {c d : Canvas K D}
    (h : BandDrawn band calls c d) (hband : band ≠ .body) : d.bodyCalls = c.bodyCalls := by
  rw [Canvas.bodyCalls, h.history, List.filter_append, filter_on hband, List.append_nil,
    Canvas.bodyCalls]

/-- A canvas that a band is being drawn on. -/
structure InBand (c : Canvas K D) : Prop where
  band : c.origin ≠ .body
  begun : c.pageCount ≠ 0

variable [Scalar K] [Device K D Output] {hook' : Origin → Canvas K D → Canvas K D}

theorem Draws.no_page {calls : List (Call K)} {c d : Canvas K D} (h : Draws hook' c calls d)
    (size : Size K) : .page size ∉ calls := by
  induction h with
  | refl => exact List.not_mem_nil
  | pen _ _ _ _ _ _ ih => exact ih
  | load _ _ ih => exact ih
  | mark _ _ ih => simpa using ih
  | image _ _ ih => simpa using ih
  | fail _ _ ih => exact ih
  | page _ _ ih => exact ih

/-- On behalf of a band nothing but calls of the band is added. -/
theorem Draws.in_band {calls : List (Call K)} {c d : Canvas K D} (h : Draws hook' c calls d)
    (hband : c.origin ≠ .body) (hpage : 0 < c.pageCount) :
    d.frame = c.frame ∧ d.history.toList = c.history.toList ++ on c.origin calls := by
  induction h with
  | refl => simp
  | pen _ _ _ _ _ _ ih => exact ih
  | load _ _ ih => exact ih
  | mark m _ ih =>
      have horigin := congrArg Frame.origin ih.1
      refine ⟨ih.1, ?_⟩
      simp_all [put, note, on, frame]
  | image _ _ ih =>
      have horigin := congrArg Frame.origin ih.1
      refine ⟨ih.1, ?_⟩
      simp_all [note, on, frame]
  | fail e _ ih => rwa [fail_frame, fail_history]
  | @page _ e _ hstart ih =>
      -- a page is started neither on behalf of a band nor after the first one
      have hcount : e.pageCount = c.pageCount := congrArg Frame.pageCount ih.1
      have horigin : e.origin = c.origin := congrArg Frame.origin ih.1
      rcases hstart with hzero | hbody
      · omega
      · exact absurd (horigin ▸ hbody) hband

namespace InBand

variable {c d : Canvas K D} (hc : InBand c)

include hc

theorem draws {calls : List (Call K)} (h : Draws hook' c calls d) : InBand d := by
  obtain ⟨hframe, -⟩ := h.in_band hc.band (Nat.pos_of_ne_zero hc.begun)
  have horigin : d.origin = c.origin := congrArg Frame.origin hframe
  have hpages : d.pageCount = c.pageCount := congrArg Frame.pageCount hframe
  refine ⟨?_, ?_⟩
  · rw [horigin]; exact hc.band
  · rw [hpages]; exact hc.begun

/-! ### What draws the bands of other pages does not matter -/

variable (hook₁ hook₂ : Origin → Canvas K D → Canvas K D)

theorem prepareWith_eq : prepareWith hook₁ c = prepareWith hook₂ c := by
  unfold prepareWith
  rw [if_neg hc.begun, if_neg hc.begun]

/-- What is drawn alike on behalf of a band is drawn alike when the canvas is prepared for it. -/
theorem prepared {f g : Canvas K D → Canvas K D} (hfg : ∀ {d : Canvas K D}, InBand d → f d = g d) :
    (if (prepareWith hook₁ c).2 then f (prepareWith hook₁ c).1 else (prepareWith hook₁ c).1) =
      if (prepareWith hook₂ c).2 then g (prepareWith hook₂ c).1 else (prepareWith hook₂ c).1 := by
  rw [hc.prepareWith_eq hook₁ hook₂, hfg (hc.draws (prepareWith_draws hook₂ c))]

theorem turnWith_eq (height : K) : turnWith hook' height c = c := by
  simp [turnWith, breaksPage, hc.band]

theorem drawCellWith_eq (cell : Cell K) (justify : Bool) :
    drawCellWith hook₁ cell justify c = drawCellWith hook₂ cell justify c := by
  rw [Canvas.drawCellWith_eq, Canvas.drawCellWith_eq, hc.turnWith_eq, hc.turnWith_eq]

theorem drawRows_eq (cell : Cell K) (width x : K) (first : Bool) (lines : List WrappedLine) :
    drawRows hook₁ cell width x first lines c = drawRows hook₂ cell width x first lines c := by
  induction lines generalizing first c with
  | nil => rfl
  | cons line lines ih =>
      have hmoved : InBand { c with x } := ⟨hc.band, hc.begun⟩
      obtain ⟨calls, hdraws, -⟩ := drawCellWith_prints hook₂
        { cell with
          width
          text := String.ofList line.text
          border := cell.border.ofLine first lines.isEmpty
          advance := .below }
        (cell.align = .justify && !line.hardBreak) { c with x }
      refine Eq.trans ?_ (ih (hmoved.draws hdraws) false)
      exact congrArg (drawRows hook₁ cell width x false lines)
        (hmoved.drawCellWith_eq hook₁ hook₂ _ _)

theorem multiCellWith_eq (cell : Cell K) :
    multiCellWith hook₁ cell c = multiCellWith hook₂ cell c := by
  let rows (d : Canvas K D) : List WrappedLine :=
    Wrap.lines (d.widthOf cell - 2 * d.cellMargin) (fun cs ↦ d.stringWidth (String.ofList cs))
      cell.text.toList
  let filled (h : Origin → Canvas K D → Canvas K D) (d : Canvas K D) : Canvas K D :=
    drawRows h cell (d.widthOf cell) d.x true (rows d) d
  let returned (d : Canvas K D) : Canvas K D := { d with x := d.margins.left }
  refine hc.prepared hook₁ hook₂ (f := fun d ↦ returned (filled hook₁ d))
    (g := fun d ↦ returned (filled hook₂ d)) fun {d} hd ↦ ?_
  exact congrArg returned (hd.drawRows_eq hook₁ hook₂ cell (d.widthOf cell) d.x true (rows d))

theorem lineWith_eq (x₁ y₁ x₂ y₂ : K) :
    lineWith hook₁ x₁ y₁ x₂ y₂ c = lineWith hook₂ x₁ y₁ x₂ y₂ c := by
  rw [lineWith, lineWith, hc.prepareWith_eq hook₁ hook₂]

theorem rectWith_eq (x y width height radius : K) (painting : Painting) :
    rectWith hook₁ x y width height radius painting c =
      rectWith hook₂ x y width height radius painting c := by
  rw [rectWith, rectWith, hc.prepareWith_eq hook₁ hook₂]

theorem imageExtentWith_eq (path : String) (width height : K) :
    imageExtentWith hook₁ path width height c = imageExtentWith hook₂ path width height c := by
  rw [Canvas.imageExtentWith_eq, Canvas.imageExtentWith_eq, hc.prepareWith_eq hook₁ hook₂]

theorem imageWith_eq (path : String) (x y width height : K) :
    imageWith hook₁ path x y width height c = imageWith hook₂ path x y width height c := by
  rw [Canvas.imageWith_eq, Canvas.imageWith_eq, hc.imageExtentWith_eq hook₁ hook₂]

theorem flowStart_eq (path : String) (align : Option Align) (width height : K) :
    flowStart hook₁ path align width height c = flowStart hook₂ path align width height c := by
  rw [flowStart, flowStart, hc.imageExtentWith_eq hook₁ hook₂]

theorem flowImageWith_eq (path : String) (align : Option Align) (x y width height spacing : K) :
    flowImageWith hook₁ path align x y width height spacing c =
      flowImageWith hook₂ path align x y width height spacing c := by
  have hstart := hc.draws (flowStart_draws hook₂ path align width height c)
  rw [Canvas.flowImageWith_eq, Canvas.flowImageWith_eq, hc.flowStart_eq hook₁ hook₂]
  generalize flowStart hook₂ path align width height c = start at hstart
  obtain ⟨d, _ | ⟨w, h⟩⟩ := start
  · rfl
  · exact congrArg (flowEnd _ spacing) (hstart.imageWith_eq hook₁ hook₂ _ _ _ _ _)

/-- A step of a band starts no page. -/
theorem stepWith_eq {s : Step K} (hs : s.Plain) : stepWith hook₁ s c = stepWith hook₂ s c := by
  cases s with
  | setMargins | setAutoBreak | setInfo | decorate | undecorate | registerFont | addPage | close =>
      exact hs.elim
  | setFont | setTextColor | setFillColor | setDrawColor | setLineWidth | setX | setY | lineFeed
  | warn => rfl
  | cell cell =>
      exact hc.prepared hook₁ hook₂ fun hd ↦ hd.drawCellWith_eq hook₁ hook₂ cell false
  | multiCell cell => exact hc.multiCellWith_eq hook₁ hook₂ cell
  | line => exact hc.lineWith_eq hook₁ hook₂ _ _ _ _
  | rect => exact hc.rectWith_eq hook₁ hook₂ _ _ _ _ _ _
  | image => exact congrArg (·.1) (hc.imageWith_eq hook₁ hook₂ _ _ _ _ _)
  | imageExtent => exact congrArg (·.1) (hc.imageExtentWith_eq hook₁ hook₂ _ _ _)
  | flowImage => exact hc.flowImageWith_eq hook₁ hook₂ _ _ _ _ _ _ _

theorem foldl_eq {steps : List (Step K)} (hsteps : ∀ s ∈ steps, s.Plain) :
    steps.foldl (fun c s ↦ stepWith hook₁ s c) c =
      steps.foldl (fun c s ↦ stepWith hook₂ s c) c := by
  induction steps generalizing c with
  | nil => rfl
  | cons s steps ih =>
      have hs := hsteps s List.mem_cons_self
      obtain ⟨calls, hdraws, -⟩ := stepWith_prints hook₂ hs c
      rw [List.foldl_cons, List.foldl_cons, hc.stepWith_eq hook₁ hook₂ hs]
      exact ih (hc.draws hdraws) fun t ht ↦ hsteps t (List.mem_cons_of_mem s ht)

end InBand

/-! ## One band -/

/-- A band by itself: its steps, one after another, on behalf of the band. -/
def drawBand (band : Origin) (c : Canvas K D) : Canvas K D :=
  ({ c with origin := band } : Canvas K D).run ((c.decorator.map (bandSteps · band)).getD [])

theorem drawBand_of_some {c : Canvas K D} {d : Decorator K} (hc : c.decorator = some d)
    (band : Origin) :
    c.drawBand band = ({ c with origin := band } : Canvas K D).run (bandSteps d band) := by
  rw [drawBand, hc]
  rfl

theorem drawBand_of_nil {c : Canvas K D} {band : Origin}
    (hsteps : ∀ d, c.decorator = some d → bandSteps d band = []) :
    c.drawBand band = { c with origin := band } := by
  have hnil : (c.decorator.map (bandSteps · band)).getD [] = [] := by
    cases hc : c.decorator with
    | none => rfl
    | some d => exact hsteps d hc
  rw [drawBand, hnil]
  rfl

theorem hook_of_none {c : Canvas K D} (hc : c.decorator = none) (band : Origin) :
    hook band c = c := by
  simp [hook, hc, hookAt]

theorem hookAt_of_some {c : Canvas K D} {d : Decorator K} (hc : c.decorator = some d)
    (depth : Nat) (band : Origin) : hookAt (depth + 1) band c =
      { (bandSteps d band).foldl (fun c s ↦ stepWith (hookAt depth) s c) { c with origin := band }
        with origin := .body } := by
  rw [hookAt, hc]

theorem hook_of_some {c : Canvas K D} {d : Decorator K} (hc : c.decorator = some d)
    (band : Origin) : ∃ depth, hook band c =
      { (bandSteps d band).foldl (fun c s ↦ stepWith (hookAt depth) s c) { c with origin := band }
        with origin := .body } := by
  have hdepth : (c.decorator.map bandDepth).getD 0 =
      2 * max (nestings d.header) (nestings d.footer) + 1 + 1 := by
    rw [hc, Option.map_some, Option.getD_some, bandDepth]
    omega
  exact ⟨_, (congrArg (hookAt · band c) hdepth).trans (hookAt_of_some hc _ band)⟩

/-- The band of a begun page is drawn by itself, and then drawing is on behalf of the body again. -/
theorem hook_eq_drawBand {c : Canvas K D} (hc : c.frame.Sound) (hpage : 0 < c.pageCount)
    {band : Origin} (hband : band ≠ .body) :
    hook band c = { c.drawBand band with origin := .body } := by
  obtain hdecorator | ⟨d, hdecorator⟩ := Option.eq_none_or_eq_some c.decorator
  · have hsteps : ∀ d, c.decorator = some d → bandSteps d band = [] := by simp [hdecorator]
    have hbody : c.origin = .body := hc.origin
    rw [hook_of_none hdecorator, drawBand_of_nil hsteps, ← hbody]
  · obtain ⟨depth, heq⟩ := hook_of_some hdecorator band
    have hplain := hc.plain d hdecorator
    have hinBand : InBand { c with origin := band } := ⟨hband, Nat.ne_of_gt hpage⟩
    rw [heq, drawBand_of_some hdecorator, hinBand.foldl_eq (hookAt depth) hook
      (bandSteps_forall hplain.header hplain.footer band)]
    rfl

/-- With or without a page, what draws a band only draws. -/
theorem hook_draws {c : Canvas K D} (hc : c.frame.Sound) (band : Origin) :
    ∃ depth calls d, Draws (hookAt depth) { c with origin := band } calls d ∧
      hook band c = { d with origin := .body } := by
  obtain hdecorator | ⟨d, hdecorator⟩ := Option.eq_none_or_eq_some c.decorator
  · have hsame : c = { c with origin := .body } := by
      have hbody : c.origin = .body := hc.origin
      rw [← hbody]
    exact ⟨0, [], _, .refl, (hook_of_none hdecorator band).trans hsame⟩
  · obtain ⟨depth, heq⟩ := hook_of_some hdecorator band
    have hplain := hc.plain d hdecorator
    obtain ⟨calls, hdraws, -⟩ := foldl_prints (hookAt depth)
      (bandSteps_forall hplain.header hplain.footer band) { c with origin := band }
    exact ⟨depth, calls, _, hdraws, heq⟩

/-- A band does not clear an error. -/
theorem hook_sticky {c : Canvas K D} (hc : c.frame.Sound) {band : Origin}
    (he : (hook band c).error = none) : c.error = none := by
  obtain ⟨depth, calls, d, hdraws, heq⟩ := hook_draws hc band
  rw [heq] at he
  exact hdraws.error_eq_none he

theorem hook_drawn {c : Canvas K D} (hc : c.frame.Sound) (hpage : 0 < c.pageCount)
    (band : Origin) (hband : band ≠ .body) : ∃ calls, BandDrawn band calls c (hook band c) := by
  obtain ⟨depth, calls, d, hdraws, heq⟩ := hook_draws hc band
  obtain ⟨hframe, hhistory⟩ := hdraws.in_band hband hpage
  have horigin : { c.frame with origin := Origin.body } = c.frame := by rw [← hc.origin]
  refine ⟨calls, ?_, ?_, hdraws.no_page⟩
  · rw [heq, ← horigin]
    exact congrArg (fun f : Frame K ↦ { f with origin := Origin.body }) hframe
  · rw [heq]; exact hhistory

variable (D) in
/-- The calls of a band that is drawn once, completely, on a canvas of a frame after the calls
`before`. -/
def BandRun (frame : Frame K) (band : Origin) (before : List (Origin × Call K))
    (calls : List (Call K)) : Prop :=
  ∃ c : Canvas K D, c.frame = frame ∧ c.history.toList = before ∧
    (c.drawBand band).error = none ∧ (c.drawBand band).history.toList = before ++ on band calls

theorem BandDrawn.run {band : Origin} {calls : List (Call K)} {c : Canvas K D}
    (h : BandDrawn band calls c (hook band c)) (hc : c.frame.Sound) (hpage : 0 < c.pageCount)
    (hband : band ≠ .body) (he : (hook band c).error = none) :
    BandRun D c.frame band c.history.toList calls := by
  have hhistory := h.history
  rw [hook_eq_drawBand hc hpage hband] at he hhistory
  exact ⟨c, rfl, rfl, he, hhistory⟩

theorem BandRun.eq_nil {frame : Frame K} {band : Origin} {before : List (Origin × Call K)}
    {calls : List (Call K)} (h : BandRun D frame band before calls)
    (hsteps : ∀ d, frame.decorator = some d → bandSteps d band = []) : calls = [] := by
  obtain ⟨c, rfl, rfl, -, hhistory⟩ := h
  rw [drawBand_of_nil hsteps, List.self_eq_append_right] at hhistory
  exact List.map_eq_nil_iff.mp hhistory

/-! ## Starting a page -/

/-- A page that is started: the footer of the page before it, the page, and its header. -/
structure PageStarted (footer header : List (Call K)) (c d : Canvas K D) : Prop where
  frame : d.frame = { c.frame with pageCount := c.pageCount + 1 }
  history : d.history.toList =
    c.history.toList ++ on .footer footer ++ (.body, .page c.frame.deviceSize) :: on .header header
  footer_run : d.error = none → if c.pageCount = 0 then footer = [] else
    BandRun D c.frame .footer c.history.toList footer
  header_run : d.error = none → BandRun D { c.frame with pageCount := c.pageCount + 1 } .header
    (c.history.toList ++ on .footer footer ++ [(.body, .page c.frame.deviceSize)]) header
  footer_no_page : ∀ size, .page size ∉ footer
  header_no_page : ∀ size, .page size ∉ header

/-- A canvas at the end of its page. -/
def ended (c : Canvas K D) : Canvas K D := if 0 < c.pageCount then hook .footer c else c

/-- The canvas on which the header of a new page is drawn. -/
def turned (c : Canvas K D) : Canvas K D := { c.ended.putPage.home with graphics := c.graphics }

theorem addPageWith_eq {c : Canvas K D} (hc : c.frame.Sound) (he : c.error = none) :
    addPageWith hook c = { hook .header c.turned with graphics := c.graphics }.home := by
  have hopen : c.closed = false := hc.isOpen
  simp [addPageWith, he, hopen, turned, ended]

theorem addPage_error {c : Canvas K D} (hc : c.frame.Sound) (he : c.addPage.error = none) :
    c.error = none := (Draws.refl.page (.inr hc.origin)).error_eq_none he

theorem ended_drawn {c : Canvas K D} (hc : c.frame.Sound) :
    ∃ calls, BandDrawn .footer calls c c.ended ∧ (c.ended.error = none →
      if c.pageCount = 0 then calls = [] else
        BandRun D c.frame .footer c.history.toList calls) := by
  unfold ended
  by_cases hpage : 0 < c.pageCount
  · simp only [if_pos hpage, if_neg (Nat.ne_of_gt hpage)]
    obtain ⟨calls, hdrawn⟩ := hook_drawn hc hpage .footer (by decide)
    exact ⟨calls, hdrawn, hdrawn.run hc hpage (by decide)⟩
  · simp only [if_neg hpage, if_pos (Nat.eq_zero_of_not_pos hpage)]
    exact ⟨[], ⟨rfl, by simp, fun _ ↦ List.not_mem_nil⟩, fun _ ↦ rfl⟩

theorem turned_frame {c : Canvas K D} (hc : c.frame.Sound) :
    c.turned.frame = { c.frame with pageCount := c.pageCount + 1 } ∧ c.turned.frame.Sound := by
  obtain ⟨footer, hfooter, -⟩ := ended_drawn hc
  have hframe : c.turned.frame = { c.frame with pageCount := c.pageCount + 1 } :=
    congrArg (fun f : Frame K ↦ { f with pageCount := f.pageCount + 1 }) hfooter.frame
  exact ⟨hframe, hc.of_eq hframe⟩

theorem addPage_started {c : Canvas K D} (hc : c.frame.Sound) (he : c.error = none) :
    ∃ footer header, PageStarted footer header c (addPageWith hook c) := by
  obtain ⟨footer, hfooter, hrun⟩ := ended_drawn hc
  obtain ⟨hframe, hsound⟩ := turned_frame hc
  have horigin : c.ended.origin = .body := (congrArg Frame.origin hfooter.frame).trans hc.origin
  have hhistory : c.turned.history.toList =
      c.history.toList ++ on .footer footer ++ [(.body, .page c.frame.deviceSize)] := by
    rw [← hfooter.history, ← hfooter.frame]
    simp [turned, putPage, note, home, horigin, Frame.deviceSize, frame]
  have hpages : c.turned.pageCount = c.pageCount + 1 := congrArg Frame.pageCount hframe
  obtain ⟨header, hheader⟩ := hook_drawn hsound (by omega) .header (by decide)
  rw [addPageWith_eq hc he]
  refine ⟨footer, header, ?_, ?_, ?_, ?_, hfooter.no_page, hheader.no_page⟩
  · exact hheader.frame.trans hframe
  · exact hheader.history.trans (by simp [hhistory])
  · intro hnone
    have hturned : c.turned.error = none := hook_sticky hsound hnone
    exact hrun hturned
  · intro hnone
    have hheaderRun := hheader.run hsound (by omega) (by decide) hnone
    rwa [hframe, hhistory] at hheaderRun

/-! ## Drawing on behalf of the body -/

theorem PageStarted.bodyCalls {footer header : List (Call K)} {c d : Canvas K D}
    (h : PageStarted footer header c d) :
    d.bodyCalls = c.bodyCalls ++ [.page c.frame.deviceSize] := by
  rw [Canvas.bodyCalls, h.history]
  simp [Canvas.bodyCalls, filter_on]

/-- Drawing on behalf of the body counts pages and otherwise leaves the frame. -/
theorem Draws.frame_eq {calls : List (Call K)} {c d : Canvas K D} (h : Draws hook c calls d)
    (hc : c.frame.Sound) : d.frame = { c.frame with pageCount := d.pageCount } := by
  induction h with
  | refl => rfl
  | pen _ _ _ _ _ _ ih => exact ih
  | load _ _ ih => exact ih
  | mark _ _ ih => exact ih
  | image _ _ ih => exact ih
  | @fail _ d e _ ih =>
      have hpages : (d.fail e).pageCount = d.pageCount := congrArg Frame.pageCount (fail_frame e d)
      rw [fail_frame, hpages, ih]
  | @page _ d _ _ ih =>
      cases he : d.error with
      | some _ => rwa [addPageWith, he]
      | none =>
          obtain ⟨footer, header, hstarted⟩ := addPage_started (hc.of_eq ih) he
          have hpages : (addPageWith hook d).pageCount = d.pageCount + 1 :=
            congrArg Frame.pageCount hstarted.frame
          rw [hstarted.frame, hpages, ih]

theorem Draws.sound {calls : List (Call K)} {c d : Canvas K D} (h : Draws hook c calls d)
    (hc : c.frame.Sound) : d.frame.Sound := hc.of_eq (h.frame_eq hc)

/-- Drawing on behalf of the body adds its calls to the body, in between of which pages start. -/
theorem Draws.bodyCalls_chars {calls : List (Call K)} {c d : Canvas K D} (h : Draws hook c calls d)
    (hc : c.frame.Sound) : d.bodyCalls.flatMap Call.chars =
      c.bodyCalls.flatMap Call.chars ++ calls.flatMap Call.chars := by
  induction h with
  | refl => simp
  | pen _ _ _ _ _ _ ih => exact ih
  | load _ _ ih => exact ih
  | mark m h ih =>
      rw [put, bodyCalls_note _ _ (h.sound hc).origin, List.flatMap_append, List.flatMap_append,
        ← List.append_assoc, ih]
  | image h _ ih =>
      rw [bodyCalls_note _ _ (h.sound hc).origin, List.flatMap_append, List.flatMap_append,
        ← List.append_assoc, ih]
  | fail e _ ih => rwa [bodyCalls, fail_history]
  | @page _ d h _ ih =>
      cases he : d.error with
      | some _ => rwa [addPageWith, he]
      | none =>
          obtain ⟨footer, header, hstarted⟩ := addPage_started (h.sound hc) he
          rw [hstarted.bodyCalls, List.flatMap_append, ih]
          simp [Call.chars]

/-! ## Closing -/

/-- A canvas with a page to end. -/
def paged (c : Canvas K D) : Canvas K D := if c.pageCount = 0 then c.addPage else c

theorem close_eq {c : Canvas K D} (hc : c.frame.Sound) :
    c.close = { hook .footer c.paged with closed := true } := by
  have hopen : c.closed = false := hc.isOpen
  simp [close, closeWith, hopen, paged, addPage]

theorem paged_draws (c : Canvas K D) : Draws hook c [] c.paged := by
  unfold paged
  split
  · next hzero => exact Draws.refl.page (.inl hzero)
  · exact .refl

theorem paged_pageCount {c : Canvas K D} (hc : c.frame.Sound) (he : c.paged.error = none) :
    0 < c.paged.pageCount := by
  unfold paged at he ⊢
  split
  · next hzero =>
      rw [if_pos hzero] at he
      obtain ⟨footer, header, hstarted⟩ := addPage_started hc (addPage_error hc he)
      have hpages : c.addPage.pageCount = c.pageCount + 1 := congrArg Frame.pageCount hstarted.frame
      omega
  · omega

/-- A document that is closed without an error gets one more footer, on its last page. -/
theorem close_drawn {c : Canvas K D} (hc : c.frame.Sound) (he : c.close.error = none) :
    c.paged.error = none ∧ (hook .footer c.paged).error = none ∧
      ∃ footer, BandDrawn .footer footer c.paged (hook .footer c.paged) := by
  rw [close_eq hc] at he
  have hsound := (paged_draws c).sound hc
  have hpaged : c.paged.error = none := hook_sticky hsound he
  exact ⟨hpaged, he, hook_drawn hsound (paged_pageCount hc hpaged) .footer (by decide)⟩

/-! ## Runs of steps -/

theorem step_prints {s : Step K} (hs : s.InFlow) {c : Canvas K D} (hc : c.frame.Sound) :
    Prints hook c s.chars (c.step s) := by
  rcases hs with hplain | rfl
  · exact stepWith_prints hook hplain c
  · exact .of_draws (Draws.refl.page (.inr hc.origin)) rfl

theorem run_prints {steps : List (Step K)} (hsteps : ∀ s ∈ steps, s.InFlow) {c : Canvas K D}
    (hc : c.frame.Sound) : Prints hook c (steps.flatMap Step.chars) (c.run steps) := by
  induction steps generalizing c with
  | nil => exact .refl c
  | cons s steps ih =>
      have hs := step_prints (hsteps s List.mem_cons_self) hc
      obtain ⟨calls, hdraws, -⟩ := id hs
      exact hs.trans (ih (fun t ht ↦ hsteps t (List.mem_cons_of_mem s ht)) (hdraws.sound hc))

end Canvas

end PagedReport
