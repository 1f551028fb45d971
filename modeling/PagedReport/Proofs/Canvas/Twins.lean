import PagedReport.Proofs.Canvas.Bands

/-!
# Two runs of one body

Two canvases are twins if they agree on all that drawing a body depends on.  They may have other
bands, other histories of their bands, and devices that bands have drawn on.  A step of a body takes
twins to twins, so bands leave no trace in it.
-/

namespace PagedReport

variable {K D Output : Type}

/-- A relation between devices that no drawing can end and that layout cannot see through. -/
structure Agreement [Device K D Output] (R : D → D → Prop) : Prop where
  symm : ∀ {d e : D}, R d e → R e d
  hasFont : ∀ {d e : D}, R d e → ∀ key, Device.hasFont d key = Device.hasFont e key
  /-- Standard fonts are measured without the device. -/
  textWidth : ∀ {d e : D}, R d e → ∀ key, StandardFont.ofKey? key = none →
    ∀ text, Device.textWidth d key text = Device.textWidth e key text
  pixels : ∀ {d e d' e' : D} {path : String} {p q : Nat × Nat}, R d e →
    Device.imageSize path d = .ok (p, d') → Device.imageSize path e = .ok (q, e') → p = q
  registerFont : ∀ {d d' : D} {key : FontKey} {data : ByteArray}, R d d →
    Device.registerFont key data d = .ok d' → R d' d'
  page : ∀ {d e : D} (size : Size K), R d e → R (Device.beginPage size d) e
  mark : ∀ {d e : D} (m : Mark K), R d e → R (Device.mark m d) e
  load : ∀ {d e d' : D} {path : String} {p : Nat × Nat}, R d e →
    Device.imageSize path d = .ok (p, d') → R d' e
  image : ∀ {d e d' : D} {path : String} {place : Rect K}, R d e →
    Device.image path place d = .ok d' → R d' e

namespace Canvas

/-! ## Line feeds after cells -/

/-- Steps in which a line feed without a height directly follows a cell; `fresh` says whether they
directly follow one themselves. -/
def Fed : Bool → List (Step K) → Prop
  | _, [] => True
  | fresh, s :: rest =>
      (s = .lineFeed none → fresh = true) ∧ Fed (match s with | .cell _ => true | _ => false) rest

namespace Fed

variable {steps steps' : List (Step K)} {fresh : Bool}

theorem mono (h : Fed false steps) (fresh : Bool) : Fed fresh steps := by
  cases steps with
  | nil => trivial
  | cons s steps => exact ⟨fun hs ↦ absurd (h.1 hs) Bool.false_ne_true, h.2⟩

theorem append (h : Fed fresh steps) (h' : Fed false steps') : Fed fresh (steps ++ steps') := by
  induction steps generalizing fresh with
  | nil => exact h'.mono fresh
  | cons s steps ih => exact ⟨h.1, ih h.2⟩

theorem of_forall (h : ∀ s ∈ steps, s ≠ .lineFeed none) : Fed fresh steps := by
  induction steps generalizing fresh with
  | nil => trivial
  | cons s steps ih =>
      exact ⟨fun hs ↦ absurd hs (h s List.mem_cons_self),
        ih fun t ht ↦ h t (List.mem_cons_of_mem s ht)⟩

/-- A line feed below a row of cells. -/
theorem cells {α : Type} (f : α → Cell K) {as : List α} (h : fresh = true ∨ as ≠ []) :
    Fed fresh (as.map (fun a ↦ .cell (f a)) ++ [.lineFeed none]) := by
  induction as generalizing fresh with
  | nil => exact ⟨fun _ ↦ h.resolve_right (absurd rfl), trivial⟩
  | cons a as ih => exact ⟨nofun, ih (.inl rfl)⟩

end Fed

variable {R : D → D → Prop}

/-! ## Twins -/

variable (R) in
/-- Canvases between which only the bands differ, and what bands may have changed: the device, the
height of the last cell, the calls that are not of the body and the warnings. -/
structure Twin (c d : Canvas K D) : Prop where
  sound : c.frame.Sound
  plain : ∀ bands, d.decorator = some bands → bands.Plain
  frame : d.frame = { c.frame with decorator := d.decorator }
  x : d.x = c.x
  y : d.y = c.y
  graphics : d.graphics = c.graphics
  device : R c.device d.device
  body : d.bodyCalls = c.bodyCalls

namespace Twin

variable {c d : Canvas K D}

/-- A twin written as a change of the canvas it is a twin of. -/
theorem exists_eq (h : Twin R c d) : ∃ device lastHeight decorator error history warnings,
    d = { c with device, lastHeight, decorator, error, history, warnings } := by
  obtain ⟨-, -, hframe, hx, hy, hgraphics, -, -⟩ := h
  refine ⟨d.device, d.lastHeight, d.decorator, d.error, d.history, d.warnings, ?_⟩
  obtain ⟨⟩ := c
  obtain ⟨⟩ := d
  simp_all [Canvas.frame]

theorem sound_right (h : Twin R c d) : d.frame.Sound := by
  rw [h.frame]
  exact ⟨h.sound.origin, h.sound.isOpen, h.plain⟩

theorem pen (h : Twin R c d) (x y lastHeight lastHeight' : K) (graphics : Graphics K)
    (warnings warnings' : Array Warning) :
    Twin R { c with x, y, lastHeight, graphics, warnings }
      { d with x, y, lastHeight := lastHeight', graphics, warnings := warnings' } :=
  ⟨h.sound, h.plain, h.frame, rfl, rfl, rfl, h.device, h.body⟩

theorem returned (h : Twin R c d) :
    Twin R { c with x := c.margins.left } { d with x := d.margins.left } :=
  ⟨h.sound, h.plain, h.frame, congrArg (fun f : Frame K ↦ f.margins.left) h.frame, h.y, h.graphics,
    h.device, h.body⟩

theorem note (h : Twin R c d) (call : Call K) {device device' : D} (hdevice : R device device') :
    Twin R ({ c with device }.note call) ({ d with device := device' }.note call) := by
  refine ⟨h.sound, h.plain, h.frame, h.x, h.y, h.graphics, hdevice, ?_⟩
  rw [bodyCalls_note _ _ h.sound.origin, bodyCalls_note _ _ h.sound_right.origin, h.body]

variable [Device K D Output]

theorem put (hR : Agreement R) (h : Twin R c d) (m : Mark K) : Twin R (c.put m) (d.put m) :=
  h.note _ (hR.mark m (hR.symm (hR.mark m (hR.symm h.device))))

theorem puts (hR : Agreement R) (h : Twin R c d) (ms : List (Mark K)) :
    Twin R (c.puts ms) (d.puts ms) := by
  induction ms generalizing c d with
  | nil => exact h
  | cons m ms ih => exact ih (h.put hR m)

/-! ## Measures -/

theorem hasFont (hR : Agreement R) (h : Twin R c d) : d.hasFont = c.hasFont := by
  funext key
  rw [Canvas.hasFont, Canvas.hasFont, hR.hasFont h.device]

variable [Scalar K]

theorem stringWidth (hR : Agreement R) (h : Twin R c d) : d.stringWidth = c.stringWidth := by
  obtain ⟨device, lastHeight, decorator, error, history, warnings, rfl⟩ := h.exists_eq
  funext text
  unfold Canvas.stringWidth Canvas.fontWidth
  dsimp only
  cases hkey : StandardFont.ofKey? c.graphics.font.key with
  | some f => rfl
  | none => rw [← hR.textWidth h.device _ hkey]

theorem contentMarks (hR : Agreement R) (h : Twin R c d) (cell : Cell K) (justify : Bool)
    (width : K) : d.contentMarks cell justify width = c.contentMarks cell justify width := by
  have hwidth := h.stringWidth hR
  obtain ⟨device, lastHeight, decorator, error, history, warnings, rfl⟩ := h.exists_eq
  simp only [Canvas.contentMarks, wordGap, measuredWords, hwidth]

theorem cellMarks (hR : Agreement R) (h : Twin R c d) (cell : Cell K) (justify : Bool)
    (width : K) : d.cellMarks cell justify width = c.cellMarks cell justify width := by
  have hbox : d.boxMarks cell width = c.boxMarks cell width := by
    obtain ⟨device, lastHeight, decorator, error, history, warnings, rfl⟩ := h.exists_eq
    rfl
  rw [Canvas.cellMarks, Canvas.cellMarks, hbox, (h.puts hR _).contentMarks hR]

end Twin

/-! ## Devices under bands -/

variable [Scalar K] [Device K D Output]

theorem Draws.device (hR : Agreement R) {hook' : Origin → Canvas K D → Canvas K D}
    {calls : List (Call K)} {c d : Canvas K D} (h : Draws hook' c calls d)
    (hband : c.origin ≠ .body) (hpage : 0 < c.pageCount) {e : D} (he : R c.device e) :
    R d.device e := by
  induction h with
  | refl => exact he
  | pen _ _ _ _ _ _ ih => exact ih
  | load _ hload ih => exact hR.load ih hload
  | mark m _ ih => exact hR.mark m ih
  | image _ himage ih => exact hR.image ih himage
  | fail failure _ ih =>
      unfold Canvas.fail
      split <;> exact ih
  | @page _ d h hstart ih =>
      have hframe := (h.in_band hband hpage).1
      have hcount : d.pageCount = c.pageCount := congrArg Frame.pageCount hframe
      have horigin : d.origin = c.origin := congrArg Frame.origin hframe
      rcases hstart with hzero | hbody
      · omega
      · exact absurd (horigin ▸ hbody) hband

theorem hook_device (hR : Agreement R) {c : Canvas K D} (hc : c.frame.Sound)
    (hpage : 0 < c.pageCount) (band : Origin) (hband : band ≠ .body) {e : D}
    (he : R c.device e) : R (hook band c).device e := by
  obtain ⟨depth, calls, d, hdraws, heq⟩ := hook_draws hc band
  rw [heq]
  exact hdraws.device hR hband hpage he

theorem ended_device (hR : Agreement R) {c : Canvas K D} (hc : c.frame.Sound) {e : D}
    (he : R c.device e) : R c.ended.device e := by
  unfold ended
  split
  · next hpage => exact hook_device hR hc hpage .footer (by decide) he
  · exact he

theorem addPage_device (hR : Agreement R) {c : Canvas K D} (hc : c.frame.Sound)
    (hcerror : c.error = none) {e : D} (he : R c.device e) : R c.addPage.device e := by
  obtain ⟨hframe, hsound⟩ := turned_frame hc
  have hpages : c.turned.pageCount = c.pageCount + 1 := congrArg Frame.pageCount hframe
  rw [addPage, addPageWith_eq hc hcerror]
  exact hook_device hR hsound (by omega) .header (by decide)
    (hR.page _ (ended_device hR hc he))

/-! ## Pages -/

theorem addPage_home {c : Canvas K D} (hc : c.frame.Sound) (he : c.error = none) :
    c.addPage.x = c.margins.left ∧ c.addPage.y = c.margins.top ∧
      c.addPage.graphics = c.graphics := by
  obtain ⟨hframe, hsound⟩ := turned_frame hc
  have hpages : c.turned.pageCount = c.pageCount + 1 := congrArg Frame.pageCount hframe
  obtain ⟨header, hheader⟩ := hook_drawn hsound (by omega) .header (by decide)
  have hmargins : (hook .header c.turned).margins = c.margins :=
    (congrArg Frame.margins hheader.frame).trans (congrArg Frame.margins hframe)
  rw [addPage, addPageWith_eq hc he]
  exact ⟨congrArg Margins.left hmargins, congrArg Margins.top hmargins, rfl⟩

namespace Twin

variable {c d : Canvas K D}

theorem addPage (hR : Agreement R) (h : Twin R c d) (he : c.error = none) (he' : d.error = none) :
    Twin R c.addPage d.addPage := by
  obtain ⟨footer, header, hstarted⟩ := addPage_started h.sound he
  obtain ⟨footer', header', hstarted'⟩ := addPage_started h.sound_right he'
  obtain ⟨hx, hy, hgraphics⟩ := addPage_home h.sound he
  obtain ⟨hx', hy', hgraphics'⟩ := addPage_home h.sound_right he'
  have hmargins : d.margins = c.margins := congrArg Frame.margins h.frame
  have hpages : d.pageCount = c.pageCount := congrArg Frame.pageCount h.frame
  have hframe : c.addPage.frame = { c.frame with pageCount := c.pageCount + 1 } := hstarted.frame
  have hframe' : d.addPage.frame = { d.frame with pageCount := d.pageCount + 1 } := hstarted'.frame
  have hdecorator : d.addPage.decorator = d.decorator := congrArg Frame.decorator hframe'
  refine ⟨h.sound.of_eq hstarted.frame, ?_, ?_, ?_, ?_, ?_, ?_, ?_⟩
  · rw [hdecorator]; exact h.plain
  · rw [hframe', hframe, hdecorator, h.frame, hpages]
  · rw [hx', hx, hmargins]
  · rw [hy', hy, hmargins]
  · rw [hgraphics', hgraphics, h.graphics]
  · exact addPage_device hR h.sound he (hR.symm (addPage_device hR h.sound_right he'
      (hR.symm h.device)))
  · have hbody : c.addPage.bodyCalls = c.bodyCalls ++ [.page c.frame.deviceSize] :=
      hstarted.bodyCalls
    have hbody' : d.addPage.bodyCalls = d.bodyCalls ++ [.page d.frame.deviceSize] :=
      hstarted'.bodyCalls
    rw [hbody', hbody, h.body, h.frame]
    rfl

theorem prepare (hR : Agreement R) (h : Twin R c d)
    (he : (prepareWith hook c).1.error = none) (he' : (prepareWith hook d).1.error = none) :
    Twin R (prepareWith hook c).1 (prepareWith hook d).1 := by
  have hc : c.error = none := (prepareWith_draws hook c).error_eq_none he
  have hd : d.error = none := (prepareWith_draws hook d).error_eq_none he'
  have hopen : c.closed = false := h.sound.isOpen
  have hopen' : d.closed = false := h.sound_right.isOpen
  have hpages : d.pageCount = c.pageCount := congrArg Frame.pageCount h.frame
  have hpage : Twin R (addPageWith hook c) (addPageWith hook d) := h.addPage hR hc hd
  unfold prepareWith
  rw [hc, hd, hopen, hopen', hpages]
  by_cases hzero : c.pageCount = 0
  · simpa [hzero] using hpage
  · simpa [hzero] using h

theorem prepared (hR : Agreement R) (h : Twin R c d) {f : Canvas K D → Canvas K D}
    (hf : ∀ {c d}, Twin R c d → (f c).error = none → (f d).error = none → Twin R (f c) (f d))
    (he : (if (prepareWith hook c).2 then f (prepareWith hook c).1
      else (prepareWith hook c).1).error = none)
    (he' : (if (prepareWith hook d).2 then f (prepareWith hook d).1
      else (prepareWith hook d).1).error = none) :
    Twin R
      (if (prepareWith hook c).2 then f (prepareWith hook c).1 else (prepareWith hook c).1)
      (if (prepareWith hook d).2 then f (prepareWith hook d).1 else (prepareWith hook d).1) := by
  have hready : ∀ {e : Canvas K D}, (if (prepareWith hook e).2 then f (prepareWith hook e).1
      else (prepareWith hook e).1).error = none →
      (prepareWith hook e).2 = true ∧ (prepareWith hook e).1.error = none := by
    intro e he
    by_cases hpossible : (prepareWith hook e).2 = true
    · exact ⟨hpossible, prepareWith_error hook e hpossible⟩
    · rw [if_neg hpossible] at he
      exact absurd (prepareWith_possible hook e he) hpossible
  obtain ⟨hpossible, herror⟩ := hready he
  obtain ⟨hpossible', herror'⟩ := hready he'
  rw [if_pos hpossible] at he ⊢
  rw [if_pos hpossible'] at he' ⊢
  exact hf (h.prepare hR herror herror') he he'

/-! ## Cells -/

theorem turn (hR : Agreement R) (h : Twin R c d) (height : K) (he : c.error = none)
    (he' : d.error = none) : Twin R (turnWith hook height c) (turnWith hook height d) := by
  have hpage := h.addPage hR he he'
  have hbreaks : d.breaksPage height = c.breaksPage height := by
    obtain ⟨device, lastHeight, decorator, error, history, warnings, rfl⟩ := h.exists_eq
    rfl
  unfold turnWith
  rw [hbreaks]
  split
  · exact ⟨hpage.sound, hpage.plain, hpage.frame, h.x, hpage.y, hpage.graphics, hpage.device,
      hpage.body⟩
  · exact h

theorem advance (h : Twin R c d) (cell : Cell K) (width : K) :
    Twin R (c.advance cell width) (d.advance cell width) := by
  obtain ⟨device, lastHeight, decorator, error, history, warnings, rfl⟩ := h.exists_eq
  unfold Canvas.advance
  dsimp only
  split <;> exact h.pen ..

theorem drawCell (hR : Agreement R) (h : Twin R c d) (cell : Cell K) (justify : Bool)
    (he : (drawCellWith hook cell justify c).error = none)
    (he' : (drawCellWith hook cell justify d).error = none) :
    Twin R (drawCellWith hook cell justify c) (drawCellWith hook cell justify d) := by
  have hc := (drawCellWith_prints hook cell justify c).error_eq_none he
  have hd := (drawCellWith_prints hook cell justify d).error_eq_none he'
  have hturn := h.turn hR cell.height hc hd
  rw [drawCellWith_eq, drawCellWith_eq]
  generalize turnWith hook cell.height c = c' at hturn
  generalize turnWith hook cell.height d = d' at hturn
  have hwidth : d'.widthOf cell = c'.widthOf cell := by
    obtain ⟨device, lastHeight, decorator, error, history, warnings, rfl⟩ := hturn.exists_eq
    rfl
  dsimp only
  rw [hwidth, hturn.cellMarks hR]
  exact (hturn.puts hR _).advance cell _

theorem rows (hR : Agreement R) (h : Twin R c d) (cell : Cell K) (width x : K) (first : Bool)
    (lines : List WrappedLine) (he : (drawRows hook cell width x first lines c).error = none)
    (he' : (drawRows hook cell width x first lines d).error = none) :
    Twin R (drawRows hook cell width x first lines c)
      (drawRows hook cell width x first lines d) := by
  induction lines generalizing first c d with
  | nil => exact h
  | cons line lines ih =>
      have hmoved : Twin R { c with x } { d with x } :=
        ⟨h.sound, h.plain, h.frame, rfl, h.y, h.graphics, h.device, h.body⟩
      have hc := (drawRows_prints hook cell width x false lines _).error_eq_none he
      have hd := (drawRows_prints hook cell width x false lines _).error_eq_none he'
      exact ih (hmoved.drawCell hR _ _ hc hd) false he he'

theorem multiCell (hR : Agreement R) (h : Twin R c d) (cell : Cell K)
    (he : (multiCellWith hook cell c).error = none)
    (he' : (multiCellWith hook cell d).error = none) :
    Twin R (multiCellWith hook cell c) (multiCellWith hook cell d) := by
  let filled (c : Canvas K D) : Canvas K D :=
    drawRows hook cell (c.widthOf cell) c.x true (Wrap.lines (c.widthOf cell - 2 * c.cellMargin)
      (fun cs ↦ c.stringWidth (String.ofList cs)) cell.text.toList) c
  let returned (c : Canvas K D) : Canvas K D := { c with x := c.margins.left }
  refine h.prepared hR (f := fun c ↦ returned (filled c)) ?_ he he'
  intro c d h he he'
  have hfilled : filled d = drawRows hook cell (c.widthOf cell) c.x true
      (Wrap.lines (c.widthOf cell - 2 * c.cellMargin)
        (fun cs ↦ c.stringWidth (String.ofList cs)) cell.text.toList) d := by
    have hwidth := h.stringWidth hR
    obtain ⟨device, lastHeight, decorator, error, history, warnings, rfl⟩ := h.exists_eq
    simp only [filled, hwidth]
    rfl
  have hrows : Twin R (filled c) (filled d) :=
    hfilled ▸ h.rows hR cell _ _ true _ he (hfilled ▸ he')
  exact hrows.returned

/-! ## Shapes and images -/

theorem line (hR : Agreement R) (h : Twin R c d) (x₁ y₁ x₂ y₂ : K)
    (he : (lineWith hook x₁ y₁ x₂ y₂ c).error = none)
    (he' : (lineWith hook x₁ y₁ x₂ y₂ d).error = none) :
    Twin R (lineWith hook x₁ y₁ x₂ y₂ c) (lineWith hook x₁ y₁ x₂ y₂ d) := by
  refine h.prepared hR (f := fun c ↦ c.put
    (.line (x₁ * c.scale) (y₁ * c.scale) (x₂ * c.scale) (y₂ * c.scale) c.paint)) ?_ he he'
  intro c d h _ _
  have hput := h.put hR
  obtain ⟨device, lastHeight, decorator, error, history, warnings, rfl⟩ := h.exists_eq
  exact hput _

theorem rect (hR : Agreement R) (h : Twin R c d) (x y width height radius : K)
    (painting : Painting) (he : (rectWith hook x y width height radius painting c).error = none)
    (he' : (rectWith hook x y width height radius painting d).error = none) :
    Twin R (rectWith hook x y width height radius painting c)
      (rectWith hook x y width height radius painting d) := by
  refine h.prepared hR (f := fun c ↦ c.put (.rect (c.inPoints x y width height)
    (Scalar.larger radius 0 * c.scale) painting c.paint)) ?_ he he'
  intro c d h _ _
  have hput := h.put hR
  obtain ⟨device, lastHeight, decorator, error, history, warnings, rfl⟩ := h.exists_eq
  exact hput _

theorem imageExtent (hR : Agreement R) (h : Twin R c d) {path : String}
    {width height : K} (he : (imageExtentWith hook path width height c).1.error = none)
    (he' : (imageExtentWith hook path width height d).1.error = none) :
    Twin R (imageExtentWith hook path width height c).1
        (imageExtentWith hook path width height d).1 ∧
      (imageExtentWith hook path width height d).2 =
        (imageExtentWith hook path width height c).2 := by
  obtain ⟨hready, pixels, device, hload, heq⟩ := imageExtentWith_ok hook he
  obtain ⟨hready', pixels', device', hload', heq'⟩ := imageExtentWith_ok hook he'
  have hprepared := h.prepare hR hready hready'
  obtain rfl : pixels = pixels' := hR.pixels hprepared.device hload hload'
  have hdevice : R device device' :=
    hR.symm (hR.load (hR.symm (hR.load hprepared.device hload)) hload')
  rw [heq, heq']
  refine ⟨⟨hprepared.sound, hprepared.plain, hprepared.frame, hprepared.x, hprepared.y,
    hprepared.graphics, hdevice, hprepared.body⟩, ?_⟩
  generalize (prepareWith hook c).1 = c' at hprepared
  generalize (prepareWith hook d).1 = d' at hprepared
  obtain ⟨device, lastHeight, decorator, error, history, warnings, rfl⟩ := hprepared.exists_eq
  rfl

theorem image (hR : Agreement R) (h : Twin R c d) {path : String} {x y width height : K}
    (he : (imageWith hook path x y width height c).1.error = none)
    (he' : (imageWith hook path x y width height d).1.error = none) :
    Twin R (imageWith hook path x y width height c).1 (imageWith hook path x y width height d).1 ∧
      (imageWith hook path x y width height d).2 = (imageWith hook path x y width height c).2 := by
  obtain ⟨c', extent, device, hcerror, hextent, hplace, heq⟩ := imageWith_ok hook he
  obtain ⟨d', extent', device', hderror, hextent', hplace', heq'⟩ := imageWith_ok hook he'
  have hc : (imageExtentWith hook path width height c).1.error = none := by rwa [hextent]
  have hd : (imageExtentWith hook path width height d).1.error = none := by rwa [hextent']
  obtain ⟨htwin, hsame⟩ := h.imageExtent hR hc hd
  rw [hextent, hextent'] at htwin hsame
  obtain rfl : extent' = extent := Option.some.inj hsame
  have hin : d'.inPoints x y extent'.1 extent'.2 = c'.inPoints x y extent'.1 extent'.2 := by
    obtain ⟨device, lastHeight, decorator, error, history, warnings, rfl⟩ := htwin.exists_eq
    rfl
  rw [hin] at hplace' heq'
  have hdevice : R device device' :=
    hR.symm (hR.image (hR.symm (hR.image htwin.device hplace)) hplace')
  rw [heq, heq']
  exact ⟨htwin.note _ hdevice, rfl⟩

theorem flowStart (hR : Agreement R) (h : Twin R c d) {path : String} {align : Option Align}
    {width height : K} (he : (flowStart hook path align width height c).1.error = none)
    (he' : (flowStart hook path align width height d).1.error = none) :
    Twin R (flowStart hook path align width height c).1
        (flowStart hook path align width height d).1 ∧
      (flowStart hook path align width height d).2 =
        (flowStart hook path align width height c).2 := by
  unfold Canvas.flowStart at he he' ⊢
  split
  · next haligned =>
      rw [if_pos haligned] at he he'
      exact h.imageExtent hR he he'
  · exact ⟨h, rfl⟩

theorem setY (h : Twin R c d) (y : K) : Twin R (c.setY y) (d.setY y) := by
  obtain ⟨device, lastHeight, decorator, error, history, warnings, rfl⟩ := h.exists_eq
  exact h.pen ..

theorem lineFeed (h : Twin R c d) (height : K) :
    Twin R (c.lineFeed (some height)) (d.lineFeed (some height)) := by
  obtain ⟨device, lastHeight, decorator, error, history, warnings, rfl⟩ := h.exists_eq
  exact h.pen ..

theorem flowEnd {p q : Canvas K D × Option (K × K)} (h : Twin R p.1 q.1) (hextent : q.2 = p.2)
    (y spacing : K) : Twin R (flowEnd y spacing p) (flowEnd y spacing q) := by
  obtain ⟨c, extent⟩ := p
  obtain ⟨d, extent'⟩ := q
  obtain rfl : extent' = extent := hextent
  cases extent' with
  | none => exact h
  | some extent =>
      unfold Canvas.flowEnd
      dsimp only
      split <;> split
      · exact (setY h _).lineFeed _
      · exact lineFeed h _
      · exact setY h _
      · exact h

theorem flowImage (hR : Agreement R) (h : Twin R c d) {path : String} {align : Option Align}
    {x y width height spacing : K}
    (he : (flowImageWith hook path align x y width height spacing c).error = none)
    (he' : (flowImageWith hook path align x y width height spacing d).error = none) :
    Twin R (flowImageWith hook path align x y width height spacing c)
      (flowImageWith hook path align x y width height spacing d) := by
  -- a failure before the image, or of the image, would stay
  have himage : ∀ {e : Canvas K D} {x y y' : K},
      (Canvas.flowEnd y' spacing (imageWith hook path x y width height e)).error = none →
      (imageWith hook path x y width height e).1.error = none :=
    fun he ↦ (flowEnd_draws hook _ _ _).error_eq_none he
  have hstart : ∀ {e : Canvas K D},
      (flowImageWith hook path align x y width height spacing e).error = none →
      (Canvas.flowStart hook path align width height e).1.error = none := by
    intro e he
    rw [flowImageWith_eq] at he
    split at he
    · next heq => rwa [heq]
    · next heq =>
        rw [heq]
        exact (imageWith_prints hook ..).error_eq_none (himage he)
  obtain ⟨htwin, hextent⟩ := h.flowStart hR (hstart he) (hstart he')
  rw [flowImageWith_eq] at he he' ⊢
  rw [flowImageWith_eq]
  generalize Canvas.flowStart hook path align width height c = p at *
  generalize Canvas.flowStart hook path align width height d = q at *
  obtain ⟨c', extent⟩ := p
  obtain ⟨d', extent'⟩ := q
  obtain rfl : extent' = extent := hextent
  cases extent' with
  | none => exact htwin
  | some extent =>
      obtain ⟨hx, hy⟩ : d'.flowX align x extent.1 = c'.flowX align x extent.1 ∧ d'.y = c'.y := by
        obtain ⟨device, lastHeight, decorator, error, history, warnings, rfl⟩ := htwin.exists_eq
        exact ⟨rfl, rfl⟩
      dsimp only at he he' ⊢
      rw [hx, hy] at he' ⊢
      obtain ⟨hdrawn, hsame⟩ := Twin.image hR htwin (himage he) (himage he')
      exact hdrawn.flowEnd hsame _ _

/-! ## Steps -/

theorem setFont (hR : Agreement R) (h : Twin R c d) (family style : String) (size : K) :
    Twin R (c.setFont family style size) (d.setFont family style size) := by
  have hchoice : d.chooseFont family style = c.chooseFont family style := by
    simp only [chooseFont, h.hasFont hR]
  unfold Canvas.setFont
  rw [hchoice]
  generalize c.chooseFont family style = choice
  obtain ⟨device, lastHeight, decorator, error, history, warnings, rfl⟩ := h.exists_eq
  obtain ⟨key, _ | warning⟩ := choice
  · exact h.pen ..
  · exact h.pen ..

/-- A step takes twins to twins, if it does not ask for the height of a cell that a band may have
drawn. -/
theorem step (hR : Agreement R) (h : Twin R c d) {s : Step K} (hs : s.InFlow)
    (hheight : s = .lineFeed none → d.lastHeight = c.lastHeight)
    (he : (c.step s).error = none) (he' : (d.step s).error = none) :
    Twin R (c.step s) (d.step s) := by
  cases s with
  | setMargins | setAutoBreak | setInfo | decorate | undecorate | registerFont | close =>
      exact (hs.resolve_right nofun).elim
  | setFont family style size => exact h.setFont hR family style size
  | setTextColor | setFillColor | setDrawColor | setLineWidth | setX | warn =>
      obtain ⟨device, lastHeight, decorator, error, history, warnings, rfl⟩ := h.exists_eq
      exact h.pen ..
  | setY y => exact h.setY y
  | lineFeed height =>
      cases height with
      | some height => exact h.lineFeed height
      | none =>
          have hlast := hheight rfl
          obtain ⟨device, lastHeight, decorator, error, history, warnings, rfl⟩ := h.exists_eq
          obtain rfl : lastHeight = c.lastHeight := hlast
          exact h.pen ..
  | addPage => exact h.addPage hR (addPage_error h.sound he) (addPage_error h.sound_right he')
  | cell cell =>
      exact h.prepared hR (fun h ↦ h.drawCell hR cell false) he he'
  | multiCell cell => exact h.multiCell hR cell he he'
  | line => exact h.line hR _ _ _ _ he he'
  | rect => exact h.rect hR _ _ _ _ _ _ he he'
  | image => exact (Twin.image hR h he he').1
  | imageExtent => exact (h.imageExtent hR he he').1
  | flowImage => exact h.flowImage hR he he'

end Twin

theorem cell_lastHeight {cell : Cell K} {c : Canvas K D}
    (he : (c.step (.cell cell)).error = none) : (c.step (.cell cell)).lastHeight = cell.height := by
  have heq : c.step (.cell cell) = if (prepareWith hook c).2 then
    drawCellWith hook cell false (prepareWith hook c).1 else (prepareWith hook c).1 := rfl
  rw [heq] at he ⊢
  by_cases hpossible : (prepareWith hook c).2 = true
  · rw [if_pos hpossible, drawCellWith_eq]
    unfold advance
    dsimp only
    split <;> rfl
  · rw [if_neg hpossible] at he
    exact absurd (prepareWith_possible hook c he) hpossible

/-- A run of such steps takes twins to twins: where the height of the last cell is asked for, it is
the height of a cell of the steps. -/
theorem Twin.run (hR : Agreement R) {c d : Canvas K D} (h : Twin R c d) {steps : List (Step K)}
    (hflow : ∀ s ∈ steps, s.InFlow) {fresh : Bool} (hfed : Fed fresh steps)
    (hheight : fresh = true → d.lastHeight = c.lastHeight)
    (he : (c.run steps).error = none) (he' : (d.run steps).error = none) :
    Twin R (c.run steps) (d.run steps) := by
  -- the last heights may differ, but agree directly after a cell
  induction steps generalizing c d fresh with
  | nil => exact h
  | cons s steps ih =>
      have hs := hflow s List.mem_cons_self
      have hrest : ∀ t ∈ steps, t.InFlow := fun t ht ↦ hflow t (List.mem_cons_of_mem s ht)
      have hstep : ∀ {e : Canvas K D}, e.frame.Sound → (e.run (s :: steps)).error = none →
          (e.step s).error = none := by
        intro e hsound he
        obtain ⟨calls, hdraws, -⟩ := step_prints hs hsound
        exact (run_prints hrest (hdraws.sound hsound)).error_eq_none he
      have hc := hstep h.sound he
      have hd := hstep h.sound_right he'
      refine ih (h.step hR hs (fun hfeed ↦ hheight (hfed.1 hfeed)) hc hd) hrest hfed.2 ?_ he he'
      intro hfresh
      split at hfresh
      · rw [cell_lastHeight hc, cell_lastHeight hd]
      · cases hfresh

/-- Closed twins have drawn the same body on the same number of pages. -/
theorem Twin.close (hR : Agreement R) {c d : Canvas K D} (h : Twin R c d)
    (he : c.close.error = none) (he' : d.close.error = none) :
    d.close.bodyCalls = c.close.bodyCalls ∧ d.close.pageCount = c.close.pageCount := by
  obtain ⟨hc, -, footer, hfooter⟩ := close_drawn h.sound he
  obtain ⟨hd, -, footer', hfooter'⟩ := close_drawn h.sound_right he'
  have hpaged : Twin R c.paged d.paged := by
    have hpages : d.pageCount = c.pageCount := congrArg Frame.pageCount h.frame
    unfold paged at hc hd ⊢
    rw [hpages] at hd ⊢
    split
    · next hzero =>
        rw [if_pos hzero] at hc hd
        exact h.addPage hR (addPage_error h.sound hc) (addPage_error h.sound_right hd)
    · exact h
  have hpages : d.paged.pageCount = c.paged.pageCount := congrArg Frame.pageCount hpaged.frame
  have hband : Origin.footer ≠ .body := by decide
  rw [close_eq h.sound, close_eq h.sound_right]
  exact ⟨(hfooter'.bodyCalls hband).trans (hpaged.body.trans (hfooter.bodyCalls hband).symm),
    (congrArg Frame.pageCount hfooter'.frame).trans
      (hpages.trans (congrArg Frame.pageCount hfooter.frame).symm)⟩

end Canvas

end PagedReport
