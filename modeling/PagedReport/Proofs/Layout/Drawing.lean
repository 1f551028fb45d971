import PagedReport.Layout.Session
import PagedReport.Proofs.Layout.Elements

/-!
# How a report is drawn

Setting a canvas up leaves it empty and open, with the bands of the report.  Sections are then drawn
step by step, so a run that succeeds prints their text.
-/

namespace PagedReport

namespace Session

open Canvas

variable {D Output : Type} [Device Float D Output]

/-! ## Setting up -/

theorem registerFont_eq (files : Files) (ctx : Context) (c : Canvas Float D)
    (f : Report.FontFile) : ∃ device warnings,
      registerFont files ctx c f = { c with device, warnings } := by
  unfold registerFont
  dsimp only
  split
  · exact ⟨c.device, _, rfl⟩
  · next data _ =>
      unfold Canvas.registerFont
      cases Device.registerFont (.ofText f.family f.style) data c.device with
      | error e => exact ⟨c.device, _, rfl⟩
      | ok device => exact ⟨device, c.warnings, rfl⟩

theorem registerFonts_eq (files : Files) (ctx : Context) (fonts : List Report.FontFile)
    (c : Canvas Float D) : ∃ device warnings,
      fonts.foldl (registerFont files ctx) c = { c with device, warnings } := by
  induction fonts generalizing c with
  | nil => exact ⟨c.device, c.warnings, rfl⟩
  | cons f fonts ih =>
      obtain ⟨device, warnings, heq⟩ := registerFont_eq files ctx c f
      obtain ⟨device', warnings', heq'⟩ := ih (registerFont files ctx c f)
      exact ⟨device', warnings', by rw [List.foldl_cons, heq', heq]⟩

structure Unused (c : Canvas Float D) : Prop where
  sound : c.frame.Sound
  history : c.history = #[]
  pageCount : c.pageCount = 0
  error : c.error = none

/-- The canvas of a report before anything is drawn: fonts, and what the page setup and the bands
make of an empty canvas. -/
theorem start_canvas (files : Files) (r : Report) (ctx : Context) (c : Canvas Float D) :
    ∃ device warnings, (start files r ctx c).canvas =
      { (c.setMargins r.setup.margins.left r.setup.margins.top r.setup.margins.right).setAutoBreak
          true r.setup.margins.bottom with
        device
        warnings
        decorator := if (bandsOf ctx r).isSome then bandsOf ctx r else c.decorator
        info := infoOf r.metadata } := by
  obtain ⟨device, warnings, heq⟩ := registerFonts_eq files ctx r.fonts
    (c.run (setupSteps r ctx).1)
  refine ⟨device, warnings, ?_⟩
  unfold start
  dsimp only
  rw [heq]
  unfold setupSteps Layout.bands bandsOf
  dsimp only
  split <;> rfl

theorem start_unused (files : Files) (r : Report) (ctx : Context) (device : D)
    (setup : PageSetup Float) :
    Unused (start files r ctx (.new device setup)).canvas ∧
      (start files r ctx (.new device setup)).canvas.decorator = bandsOf ctx r := by
  obtain ⟨device', warnings, heq⟩ := start_canvas files r ctx (.new device setup)
  have hdecorator : (start files r ctx (.new device setup)).canvas.decorator = bandsOf ctx r := by
    rw [heq]
    cases hbands : bandsOf ctx r <;> rfl
  refine ⟨⟨⟨?_, ?_, ?_⟩, ?_, ?_, ?_⟩, hdecorator⟩
  · rw [heq]; rfl
  · rw [heq]; rfl
  · exact fun d hd ↦ bandsOf_plain ctx r d (hdecorator ▸ hd)
  · rw [heq]; rfl
  · rw [heq]; rfl
  · rw [heq]; rfl

/-- What registering fonts preserves holds of the device of a report from the start. -/
theorem start_device {P : D → Prop}
    (hP : ∀ {d d' : D} {key : FontKey} {data : ByteArray}, P d →
      Device.registerFont key data d = .ok d' → P d')
    (files : Files) (r : Report) (ctx : Context) {device : D} (hdevice : P device)
    (setup : PageSetup Float) : P (start files r ctx (.new device setup)).canvas.device := by
  have hfont : ∀ (c : Canvas Float D) (f : Report.FontFile), P c.device →
      P (registerFont files ctx c f).device := by
    intro c f hc
    unfold registerFont
    dsimp only
    split
    · exact hc
    · next data _ =>
        unfold Canvas.registerFont
        cases hregister : Device.registerFont (.ofText f.family f.style) data c.device with
        | error e => exact hc
        | ok device => exact hP hc hregister
  have hfonts : ∀ (fonts : List Report.FontFile) (c : Canvas Float D), P c.device →
      P (fonts.foldl (registerFont files ctx) c).device := by
    intro fonts
    induction fonts with
    | nil => exact fun _ ↦ id
    | cons f fonts ih => exact fun c hc ↦ ih _ (hfont c f hc)
  unfold start setupSteps Layout.bands
  dsimp only
  split
  · exact hfonts r.fonts ((Canvas.new device setup).run (setupSteps r ctx).1) hdevice
  · exact hfonts r.fonts ((Canvas.new device setup).run (setupSteps r ctx).1) hdevice

/-! ## Sections -/

theorem check_eq_ok {wrap : CanvasError → GenerationError} {c : Canvas Float D} :
    check wrap c = .ok () ↔ c.error = none := by
  unfold check
  cases c.error <;> simp

theorem drawElements_prints {ctx : Context} {sectionName : String} {index : Nat}
    {elements : List (Report.Element Report.Content)} {c d : Canvas Float D}
    (hc : c.frame.Sound) (h : drawElements ctx sectionName index elements c = (d, .ok ())) :
    Prints hook c (elements.flatMap fun e ↦ e.content.text ctx.helpers ctx.data) d ∧
      (c.error = none → d.error = none) := by
  induction elements generalizing index c with
  | nil =>
      obtain ⟨rfl, -⟩ : c = d ∧ True := by simpa [drawElements] using h
      exact ⟨.refl c, id⟩
  | cons e elements ih =>
      obtain ⟨hflow, hchars⟩ := element_shows ctx e
      have hrun := run_prints hflow hc
      obtain ⟨calls, hdraws, -⟩ := id hrun
      rw [drawElements] at h
      split at h
      · cases h
      · next hcheck =>
          obtain ⟨hprints, herror⟩ := ih (hdraws.sound hc) h
          rw [hchars] at hrun
          exact ⟨hrun.trans hprints, fun _ ↦ herror (check_eq_ok.mp hcheck)⟩

/-- The canvas on which the elements of a section are drawn. -/
def opened (s : Session D) (part : Report.Section) : Canvas Float D :=
  if s.startsPage part then s.canvas.addPage else s.canvas

theorem opened_draws (s : Session D) (part : Report.Section) (hc : s.canvas.frame.Sound) :
    Draws hook s.canvas [] (s.opened part) := by
  unfold opened
  split
  · exact Draws.refl.page (.inr hc.origin)
  · exact .refl

/-- A section that is drawn: its page, its elements, and the page after it. -/
theorem drawSection_ok {part : Report.Section} {s s' : Session D}
    (h : s.drawSection part = (s', .ok ())) :
    (s.opened part).error = none ∧ ∃ d,
      drawElements s.context part.name 0 part.elements (s.opened part) = (d, .ok ()) ∧
      (part.breakAfter = true → d.addPage.error = none) ∧
      s' = { s with canvas := if part.breakAfter then d.addPage else d, started := true } := by
  unfold drawSection at h
  dsimp only at h
  split at h
  · cases h
  · next hcheck =>
      refine ⟨check_eq_ok.mp hcheck, ?_⟩
      split at h
      · cases h
      · next d helements =>
          refine ⟨d, helements, ?_⟩
          split at h
          · next hafter =>
              obtain ⟨rfl, hlast⟩ := Prod.mk.inj h
              exact ⟨fun _ ↦ check_eq_ok.mp hlast, by rw [if_pos hafter]⟩
          · next hafter =>
              obtain ⟨rfl, -⟩ := Prod.mk.inj h
              exact ⟨fun h ↦ absurd h hafter, by rw [if_neg hafter]⟩

theorem drawSection_prints {part : Report.Section} {s s' : Session D}
    (hc : s.canvas.frame.Sound) (h : s.drawSection part = (s', .ok ())) :
    Prints hook (s.opened part)
        (part.elements.flatMap fun e ↦ e.content.text s.context.helpers s.context.data) s'.canvas ∧
      s'.canvas.error = none ∧ s'.context = s.context := by
  have hopened := (opened_draws s part hc).sound hc
  obtain ⟨hfirst, d, helements, hlast, rfl⟩ := drawSection_ok h
  obtain ⟨hprints, herror⟩ := drawElements_prints hopened helements
  obtain ⟨calls, hdraws, -⟩ := id hprints
  refine ⟨?_, ?_, rfl⟩
  · dsimp only
    split
    · exact hprints.andThen (Draws.refl.page (.inr (hdraws.sound hopened).origin))
    · exact hprints
  · dsimp only
    split
    · next hafter => exact hlast hafter
    · exact herror hfirst

theorem drawSections_prints {parts : List Report.Section} {s s' : Session D}
    (hc : s.canvas.frame.Sound) (h : drawSections parts s = (s', .ok ())) :
    Prints hook s.canvas (Report.sectionsText s.context.helpers s.context.data parts) s'.canvas ∧
      (s.canvas.error = none → s'.canvas.error = none) := by
  induction parts generalizing s with
  | nil =>
      obtain ⟨rfl, -⟩ := Prod.mk.inj h
      exact ⟨.refl _, id⟩
  | cons part parts ih =>
      rw [drawSections] at h
      split at h
      · cases h
      · next d hpart =>
          obtain ⟨hprints, herror, hcontext⟩ := drawSection_prints hc hpart
          have hfirst := hprints.after (opened_draws s part hc)
          obtain ⟨calls, hdraws, -⟩ := id hfirst
          obtain ⟨hrest, hlast⟩ := ih (hdraws.sound hc) h
          rw [hcontext] at hrest
          exact ⟨hfirst.trans hrest, fun _ ↦ hlast herror⟩

/-- A run that draws a section at all goes on from the page it is opened on. -/
theorem drawSections_cons {part : Report.Section} {parts : List Report.Section} {s s' : Session D}
    (hc : s.canvas.frame.Sound) (h : drawSections (part :: parts) s = (s', .ok ())) :
    (∃ calls, Draws hook (s.opened part) calls s'.canvas) ∧ s'.canvas.error = none := by
  rw [drawSections] at h
  split at h
  · cases h
  · next d hpart =>
      obtain ⟨⟨calls, hdraws, -⟩, herror, -⟩ := drawSection_prints hc hpart
      have hopened := (opened_draws s part hc).sound hc
      obtain ⟨⟨calls', hdraws', -⟩, hlast⟩ := drawSections_prints (hdraws.sound hopened) h
      exact ⟨⟨calls ++ calls', hdraws.trans hdraws'⟩, hlast herror⟩

end Session

end PagedReport
