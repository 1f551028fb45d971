import PagedReport.Proofs.Canvas.Twins

/-!
# Bands as bodies

Nothing starts a page in a band, so a band is drawn as if it were the body of a page that never
ends.  What is known of bodies is known of bands by that.
-/

namespace PagedReport

variable {K D Output : Type}

namespace Canvas

/-- An empty page that never ends and has no bands, under the cursor and with the pens of a
canvas. -/
def aside (c : Canvas K D) : Canvas K D :=
  { c with
    autoBreak := false
    pageCount := 1
    decorator := none
    origin := .body
    history := #[] }

/-- A canvas after its band has drawn what `d` has drawn aside. -/
def within (c d : Canvas K D) : Canvas K D :=
  { d with
    autoBreak := c.autoBreak
    pageCount := c.pageCount
    decorator := c.decorator
    origin := c.origin
    history := c.history ++ d.history.map fun p ↦ (c.origin, p.2) }

theorem within_aside (c : Canvas K D) : c.within c.aside = c := by
  simp [within, aside]

/-- A canvas with a page that never ends. -/
structure Endless (d : Canvas K D) : Prop where
  sound : d.frame.Sound
  unbroken : d.autoBreak = false
  begun : d.pageCount ≠ 0

theorem aside_endless {c : Canvas K D} (hc : c.closed = false) : Endless c.aside :=
  ⟨⟨rfl, hc, nofun⟩, rfl, Nat.one_ne_zero⟩

variable {c d : Canvas K D}

theorem InBand.within (hc : InBand c) (d : Canvas K D) : InBand (c.within d) := ⟨hc.band, hc.begun⟩

/-! ## Marks -/

theorem within_note (call : Call K) : (c.within d).note call = c.within (d.note call) := by
  simp [note, within]

theorem within_fail (e : CanvasError) : (c.within d).fail e = c.within (d.fail e) := by
  obtain ⟨⟩ := d
  unfold fail within
  dsimp only
  split <;> rfl

section

variable [Device K D Output]

theorem within_put (m : Mark K) : (c.within d).put m = c.within (d.put m) :=
  within_note (c := c) (d := { d with device := Device.mark m d.device }) (.mark m)

theorem within_puts (ms : List (Mark K)) : (c.within d).puts ms = c.within (d.puts ms) := by
  induction ms generalizing d with
  | nil => rfl
  | cons m ms ih => rw [puts_cons, puts_cons, within_put, ih]

end

variable [Scalar K] [Device K D Output]

theorem within_cellMarks (cell : Cell K) (justify : Bool) (width : K) :
    (c.within d).cellMarks cell justify width = d.cellMarks cell justify width := by
  have hbox : (c.within d).boxMarks cell width = d.boxMarks cell width := rfl
  rw [cellMarks, hbox, within_puts]
  rfl

/-! ## Pages that do not end -/

/-- Drawing on behalf of the body takes no page back. -/
theorem Draws.pageCount_le {calls : List (Call K)} (h : Draws hook c calls d)
    (hc : c.frame.Sound) : c.pageCount ≤ d.pageCount := by
  induction h with
  | refl => exact Nat.le_refl _
  | pen _ _ _ _ _ _ ih => exact ih
  | load _ _ ih => exact ih
  | mark _ _ ih => exact ih
  | image _ _ ih => exact ih
  | @fail _ d e _ ih =>
      have hpages : (d.fail e).pageCount = d.pageCount := congrArg Frame.pageCount (fail_frame e d)
      rwa [hpages]
  | @page _ d h _ ih =>
      cases he : d.error with
      | some _ => rwa [addPageWith, he]
      | none =>
          obtain ⟨footer, header, hstarted⟩ := addPage_started (h.sound hc) he
          have hpages : (addPageWith hook d).pageCount = d.pageCount + 1 :=
            congrArg Frame.pageCount hstarted.frame
          omega

theorem Endless.draws {calls : List (Call K)} (hc : Endless c) (h : Draws hook c calls d) :
    Endless d where
  sound := h.sound hc.sound
  unbroken := (congrArg Frame.autoBreak (h.frame_eq hc.sound)).trans hc.unbroken
  begun := by
    have hpages := h.pageCount_le hc.sound
    have hbegun := hc.begun
    omega

theorem within_prepare (hc : InBand c) (hd : Endless d) :
    prepareWith hook (c.within d) =
      (c.within (prepareWith hook d).1, (prepareWith hook d).2) := by
  have hopen : d.closed = false := hd.sound.isOpen
  have hopen' : (c.within d).closed = false := hopen
  have hpages : (c.within d).pageCount ≠ 0 := hc.begun
  have herror : (c.within d).error = d.error := rfl
  unfold prepareWith
  rw [herror, hopen, hopen', if_neg hpages, if_neg hd.begun]
  dsimp only
  rw [herror]
  cases d.error <;> rfl

/-- What is drawn alike aside and in the band is drawn alike when the canvas is prepared for it. -/
theorem within_prepared (hc : InBand c) (hd : Endless d) {f g : Canvas K D → Canvas K D}
    (hf : ∀ {d : Canvas K D}, Endless d → g (c.within d) = c.within (f d)) :
    (if (prepareWith hook (c.within d)).2 then g (prepareWith hook (c.within d)).1
      else (prepareWith hook (c.within d)).1) =
    c.within (if (prepareWith hook d).2 then f (prepareWith hook d).1
      else (prepareWith hook d).1) := by
  have hready := hd.draws (prepareWith_draws hook d)
  rw [within_prepare hc hd]
  dsimp only
  split
  · exact hf hready
  · rfl

/-! ## Cells -/

theorem turnWith_endless (hd : Endless d) (height : K) : turnWith hook height d = d := by
  simp [turnWith, breaksPage, hd.unbroken]

theorem within_advance (cell : Cell K) (width : K) :
    (c.within d).advance cell width = c.within (d.advance cell width) := by
  unfold advance
  dsimp only
  split <;> rfl

theorem within_drawCell (hc : InBand c) (hd : Endless d) (cell : Cell K) (justify : Bool) :
    drawCellWith hook cell justify (c.within d) = c.within (drawCellWith hook cell justify d) := by
  have hwidth : (c.within d).widthOf cell = d.widthOf cell := rfl
  rw [drawCellWith_eq, drawCellWith_eq, turnWith_endless hd, (hc.within d).turnWith_eq]
  dsimp only
  rw [hwidth, within_cellMarks, within_puts, within_advance]

theorem within_drawRows (hc : InBand c) (hd : Endless d) (cell : Cell K) (width x : K)
    (first : Bool) (lines : List WrappedLine) :
    drawRows hook cell width x first lines (c.within d) =
      c.within (drawRows hook cell width x first lines d) := by
  induction lines generalizing first d with
  | nil => rfl
  | cons line lines ih =>
      have hmoved : Endless { d with x } := ⟨hd.sound, hd.unbroken, hd.begun⟩
      obtain ⟨calls, hdraws, -⟩ := drawCellWith_prints hook
        { cell with
          width
          text := String.ofList line.text
          border := cell.border.ofLine first lines.isEmpty
          advance := .below }
        (cell.align = .justify && !line.hardBreak) { d with x }
      refine Eq.trans ?_ (ih (hmoved.draws hdraws) false)
      exact congrArg (drawRows hook cell width x false lines) (within_drawCell hc hmoved _ _)

theorem within_cell (hc : InBand c) (hd : Endless d) (cell : Cell K) :
    cellWith hook cell (c.within d) = c.within (cellWith hook cell d) :=
  within_prepared hc hd fun hd ↦ within_drawCell hc hd cell false

theorem within_multiCell (hc : InBand c) (hd : Endless d) (cell : Cell K) :
    multiCellWith hook cell (c.within d) = c.within (multiCellWith hook cell d) := by
  let rows (d : Canvas K D) : List WrappedLine :=
    Wrap.lines (d.widthOf cell - 2 * d.cellMargin) (fun cs ↦ d.stringWidth (String.ofList cs))
      cell.text.toList
  let filled (h : Origin → Canvas K D → Canvas K D) (d : Canvas K D) : Canvas K D :=
    drawRows h cell (d.widthOf cell) d.x true (rows d) d
  let returned (d : Canvas K D) : Canvas K D := { d with x := d.margins.left }
  refine within_prepared (f := fun d ↦ returned (filled hook d))
    (g := fun d ↦ returned (filled hook d)) hc hd fun {d} hd ↦ ?_
  exact congrArg returned (within_drawRows hc hd cell (d.widthOf cell) d.x true (rows d))

/-! ## Shapes and images -/

theorem within_line (hc : InBand c) (hd : Endless d) (x₁ y₁ x₂ y₂ : K) :
    lineWith hook x₁ y₁ x₂ y₂ (c.within d) = c.within (lineWith hook x₁ y₁ x₂ y₂ d) := by
  let drawn (d : Canvas K D) : Canvas K D :=
    d.put (.line (x₁ * d.scale) (y₁ * d.scale) (x₂ * d.scale) (y₂ * d.scale) d.paint)
  exact within_prepared (f := drawn) (g := drawn) hc hd fun _ ↦ within_put _

theorem within_rect (hc : InBand c) (hd : Endless d) (x y width height radius : K)
    (painting : Painting) :
    rectWith hook x y width height radius painting (c.within d) =
      c.within (rectWith hook x y width height radius painting d) := by
  let drawn (d : Canvas K D) : Canvas K D :=
    d.put (.rect (d.inPoints x y width height) (Scalar.larger radius 0 * d.scale) painting d.paint)
  exact within_prepared (f := drawn) (g := drawn) hc hd fun _ ↦ within_put _

theorem within_imageExtent (hc : InBand c) (hd : Endless d) (path : String) (width height : K) :
    imageExtentWith hook path width height (c.within d) =
      (c.within (imageExtentWith hook path width height d).1,
        (imageExtentWith hook path width height d).2) := by
  unfold imageExtentWith
  rw [within_prepare hc hd]
  generalize prepareWith hook d = ready
  obtain ⟨e, possible⟩ := ready
  have hdevice : (c.within e).device = e.device := rfl
  dsimp only
  rw [hdevice]
  cases possible with
  | false => rfl
  | true =>
      cases Device.imageSize path e.device with
      | error failure => exact congrArg (·, none) (within_fail failure)
      | ok loaded =>
          obtain ⟨pixels, device⟩ := loaded
          dsimp only
          by_cases hpixels : pixels.1 = 0 ∨ pixels.2 = 0
          · simp only [if_pos hpixels, if_true]
            exact congrArg (·, none) (within_fail (c := c) (d := { e with device }) _)
          · simp only [if_neg hpixels, if_true]
            rfl

theorem within_image (hc : InBand c) (hd : Endless d) (path : String) (x y width height : K) :
    imageWith hook path x y width height (c.within d) =
      (c.within (imageWith hook path x y width height d).1,
        (imageWith hook path x y width height d).2) := by
  unfold imageWith
  rw [within_imageExtent hc hd]
  generalize imageExtentWith hook path width height d = measured
  obtain ⟨e, _ | ⟨w, h⟩⟩ := measured
  · rfl
  · have hplace : (c.within e).inPoints x y w h = e.inPoints x y w h := rfl
    have hdevice : (c.within e).device = e.device := rfl
    dsimp only
    rw [hplace, hdevice]
    cases Device.image path (e.inPoints x y w h) e.device with
    | error failure => exact congrArg (·, none) (within_fail failure)
    | ok device =>
      dsimp only
      exact congrArg (·, some (w, h)) (within_note (c := c) (d := { e with device }) _)

theorem within_flowStart (hc : InBand c) (hd : Endless d) (path : String) (align : Option Align)
    (width height : K) :
    flowStart hook path align width height (c.within d) =
      (c.within (flowStart hook path align width height d).1,
        (flowStart hook path align width height d).2) := by
  unfold flowStart
  split
  · exact within_imageExtent hc hd path width height
  · rfl

theorem within_flowEnd (y spacing : K) (p : Canvas K D × Option (K × K)) :
    flowEnd y spacing (c.within p.1, p.2) = c.within (flowEnd y spacing p) := by
  obtain ⟨d, _ | ⟨w, h⟩⟩ := p
  · rfl
  · unfold flowEnd
    dsimp only
    split <;> split <;> rfl

theorem within_flowImage (hc : InBand c) (hd : Endless d) (path : String) (align : Option Align)
    (x y width height spacing : K) :
    flowImageWith hook path align x y width height spacing (c.within d) =
      c.within (flowImageWith hook path align x y width height spacing d) := by
  have hstart := hd.draws (flowStart_draws hook path align width height d)
  rw [flowImageWith_eq, flowImageWith_eq, within_flowStart hc hd]
  generalize flowStart hook path align width height d = start at hstart
  obtain ⟨e, _ | ⟨w, h⟩⟩ := start
  · rfl
  · have hx : (c.within e).flowX align x w = e.flowX align x w := rfl
    have hy : (c.within e).y = e.y := rfl
    dsimp only
    rw [hx, hy, within_image hc hstart, within_flowEnd]

/-! ## Steps -/

theorem within_setFont (family style : String) (size : K) :
    (c.within d).setFont family style size = c.within (d.setFont family style size) := by
  have hchoice : (c.within d).chooseFont family style = d.chooseFont family style := rfl
  unfold setFont
  rw [hchoice]
  obtain ⟨key, _ | warning⟩ := d.chooseFont family style <;> rfl

/-- A step that draws is the same step in a band and aside. -/
theorem within_step (hc : InBand c) (hd : Endless d) {s : Step K} (hs : s.Plain) :
    (c.within d).step s = c.within (d.step s) := by
  cases s with
  | setMargins | setAutoBreak | setInfo | decorate | undecorate | registerFont | addPage | close =>
      exact hs.elim
  | setFont family style size => exact within_setFont (c := c) (d := d) family style size
  | setTextColor | setFillColor | setDrawColor | setLineWidth | setX | setY | lineFeed | warn => rfl
  | cell cell => exact within_cell hc hd cell
  | multiCell cell => exact within_multiCell hc hd cell
  | line => exact within_line hc hd _ _ _ _
  | rect => exact within_rect hc hd _ _ _ _ _ _
  | image path x y width height => exact congrArg (·.1) (within_image hc hd path x y width height)
  | imageExtent path width height =>
      exact congrArg (·.1) (within_imageExtent hc hd path width height)
  | flowImage path align x y width height spacing =>
      exact within_flowImage hc hd path align x y width height spacing

theorem within_run (hc : InBand c) {steps : List (Step K)} (hsteps : ∀ s ∈ steps, s.Plain)
    (hd : Endless d) :
    (c.within d).run steps = c.within (d.run steps) := by
  induction steps generalizing d with
  | nil => rfl
  | cons s steps ih =>
      have hs := hsteps s List.mem_cons_self
      obtain ⟨calls, hdraws, -⟩ := stepWith_prints hook hs d
      rw [run, List.foldl_cons, within_step hc hd hs]
      exact ih (fun t ht ↦ hsteps t (List.mem_cons_of_mem s ht)) (hd.draws hdraws)

/-- Without bands all calls are made on behalf of the body. -/
theorem Draws.all_body {calls : List (Call K)} (h : Draws hook c calls d) (hc : c.frame.Sound)
    (hnone : c.decorator = none) (hbody : ∀ p ∈ c.history, p.1 = .body) :
    ∀ p ∈ d.history, p.1 = .body := by
  have hnote : ∀ {e : Canvas K D} (call : Call K), e.origin = .body →
      (∀ p ∈ e.history, p.1 = .body) → ∀ p ∈ (e.note call).history, p.1 = .body := by
    intro e call he hall p hp
    rcases Array.mem_push.mp hp with hp | rfl
    · exact hall p hp
    · exact he
  induction h with
  | refl => exact hbody
  | pen _ _ _ _ _ _ ih => exact ih
  | load _ _ ih => exact ih
  | @mark _ d m h ih =>
      exact hnote (e := { d with device := Device.mark m d.device }) _ (h.sound hc).origin ih
  | @image _ d _ _ device h _ ih => exact hnote (e := { d with device }) _ (h.sound hc).origin ih
  | fail e _ ih => rwa [fail_history]
  | @page _ d h _ ih =>
      cases he : d.error with
      | some _ => rwa [addPageWith, he]
      | none =>
          have hdecorator : d.decorator = none :=
            (congrArg Frame.decorator (h.frame_eq hc)).trans hnone
          have hended : d.ended = d := by simp [ended, hook_of_none hdecorator]
          have hturned : d.turned.decorator = none := by rw [turned, hended]; exact hdecorator
          rw [addPageWith_eq (h.sound hc) he, hook_of_none hturned, turned, hended]
          exact hnote (e := { d with device := _, pageCount := _ }) _ (h.sound hc).origin ih

/-- A band fails where its steps fail aside, and it makes the calls that they make aside. -/
theorem drawBand_aside {c : Canvas K D} (hc : c.frame.Sound) (hpage : c.pageCount ≠ 0)
    {bands : Decorator K} (hbands : c.decorator = some bands) {band : Origin}
    (hband : band ≠ .body) :
    (c.drawBand band).error = (c.aside.run (bandSteps bands band)).error ∧
      (c.drawBand band).history.toList =
        c.history.toList ++ on band (c.aside.run (bandSteps bands band)).bodyCalls := by
  have hplain := hc.plain bands hbands
  have hsteps := bandSteps_forall hplain.header hplain.footer band
  have hendless : Endless c.aside := aside_endless hc.isOpen
  have hinBand : InBand { c with origin := band } := ⟨hband, hpage⟩
  have hrun := within_run hinBand hsteps hendless
  have hstart : ({ c with origin := band } : Canvas K D).within c.aside =
      { c with origin := band } :=
    within_aside { c with origin := band }
  rw [hstart] at hrun
  rw [drawBand_of_some hbands, hrun]
  refine ⟨rfl, ?_⟩
  obtain ⟨calls, hdraws, -⟩ := foldl_prints hook hsteps c.aside
  have hbody : ∀ p ∈ (c.aside.run (bandSteps bands band)).history, p.1 = .body :=
    hdraws.all_body hendless.sound rfl (by simp [aside])
  have hfilter : (c.aside.run (bandSteps bands band)).history.toList.filter (·.1 = .body) =
      (c.aside.run (bandSteps bands band)).history.toList :=
    List.filter_eq_self.mpr fun p hp ↦ by simpa using hbody p (Array.mem_toList_iff.mp hp)
  rw [bodyCalls, hfilter]
  simp [within, on]

end Canvas

end PagedReport
