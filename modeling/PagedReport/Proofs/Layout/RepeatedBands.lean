import PagedReport.Proofs.Canvas.BandedPages
import PagedReport.Proofs.Canvas.Recording
import PagedReport.Proofs.Layout.BodySteps
import PagedReport.Proofs.Layout.TwinRuns
import PagedReport.Proofs.Pdf.Agreement

/-!
# Bands from page to page

Header and footer share the graphics state with the body.  It is set back after a band, but not
before one, so a style of the body stays in effect in the bands of the pages after it.  That is all
of the body that shows in them: a band is the same on all pages that find the same state.
-/

namespace PagedReport

open Report Canvas

/-! ## The bands of a report -/

theorem bandElement_fed (ctx : Context) (e : Element BandContent) :
    Fed false (Layout.bandElement ctx e) :=
  element_fed ctx { e with content := .band e.content } trivial

theorem header_fed (ctx : Context) (b : Band) : Fed false (Layout.header ctx b) := by
  unfold Layout.header
  induction b.elements with
  | nil => trivial
  | cons e elements ih => exact (bandElement_fed ctx e).append ih

/-- The bands of a report depend on nothing that was drawn before them. -/
theorem bandsOf_placed (ctx : Context) (r : Report) : ∀ d, bandsOf ctx r = some d → d.Placed := by
  intro d hd
  have hplain := bandsOf_plain ctx r d hd
  obtain ⟨hheader, hfooter⟩ := bandsOf_eq_some ctx hd
  refine ⟨hplain, ?_, ?_, ?_⟩
  · rw [hheader]
    cases Layout.shown r.header with
    | none => trivial
    | some b => exact header_fed ctx b
  · rw [hfooter]
    cases Layout.shown r.footer with
    | none => trivial
    | some b => exact ⟨nofun, header_fed ctx b⟩
  · rw [hfooter]
    cases Layout.shown r.footer with
    | none => exact .inl rfl
    | some b => exact .inr ⟨-b.height, Layout.header ctx b, rfl⟩

namespace Session

open Layout

variable {D Output : Type} [Device Float D Output] {R : D → D → Prop}

/-! ## Whole documents -/

theorem close_pageCount {c : Canvas Float D} (hc : c.frame.Sound) (he : c.close.error = none) :
    c.close.pageCount = c.paged.pageCount := by
  obtain ⟨-, -, footer, hfooter⟩ := close_drawn hc he
  rw [close_eq hc]
  exact congrArg Frame.pageCount hfooter.frame

theorem Unused.run_error {b : Canvas Float D} (hb : Unused b) {steps : List (Step Float)}
    (hsteps : ∀ s ∈ steps, s.InFlow) (he : (b.run steps).close.error = none) :
    (b.run steps).error = none := by
  obtain ⟨calls, hdraws, -⟩ := run_prints hsteps hb.sound
  obtain ⟨hpaged, -⟩ := close_drawn (hdraws.sound hb.sound) he
  exact (paged_draws _).error_eq_none hpaged

theorem Unused.run_banded {b : Canvas Float D} (hb : Unused b) (hR : Agreement R)
    (hdevice : R b.device b.device) {look : Origin → Graphics Float → List (Call Float)}
    (hlook : Looks R b look) {rest : List (Step Float)} (hrest : ∀ s ∈ rest, s.InFlow)
    (he : (b.addPage.run rest).error = none) :
    (b.addPage.run rest).graphics = rest.foldl b.restyled b.graphics ∧ ∃ pages last,
      Banded R b look (pageStarts (.addPage :: rest) b) pages last (b.addPage.run rest) := by
  obtain ⟨footer, header, hstarted⟩ := addPage_started hb.sound hb.error
  have hpages : b.addPage.pageCount = b.pageCount + 1 := congrArg Frame.pageCount hstarted.frame
  have hfirst : b.addPage.error = none :=
    (run_prints hrest (hb.sound.of_eq hstarted.frame)).error_eq_none he
  obtain ⟨last, hbanded⟩ := Banded.first hR hb.sound hlook hb.history hb.pageCount hfirst
  obtain ⟨-, -, hgraphics⟩ := addPage_home hb.sound hb.error
  have hstarts : pageStarts (.addPage :: rest) b = [b.graphics] ++ pageStarts rest b.addPage := by
    change List.replicate (b.addPage.pageCount - b.pageCount) b.graphics ++ _ = _
    rw [hpages, Nat.add_sub_cancel_left]
    rfl
  rw [hstarts, ← hgraphics]
  rw [← hgraphics] at hbanded
  exact hbanded.run hR hb.sound hdevice hlook hrest he

theorem addPage_close {b : Canvas Float D} (hb : Unused b) : b.addPage.close = b.close := by
  obtain ⟨footer, header, hstarted⟩ := addPage_started hb.sound hb.error
  have hpages : b.addPage.pageCount = b.pageCount + 1 := congrArg Frame.pageCount hstarted.frame
  have hpaged : b.addPage.paged = b.paged := by
    rw [paged, paged, if_neg (by omega), if_pos hb.pageCount]
  have hclose : b.addPage.close = { hook .footer b.addPage.paged with closed := true } :=
    close_eq (hb.sound.of_eq hstarted.frame)
  rw [hclose, close_eq hb.sound, hpaged]

/-- The pages of a document that is closed. -/
theorem Unused.close_banded {b : Canvas Float D} (hb : Unused b) (hR : Agreement R)
    (hdevice : R b.device b.device) {look : Origin → Graphics Float → List (Call Float)}
    (hlook : Looks R b look) {rest : List (Step Float)} (hrest : ∀ s ∈ rest, s.InFlow)
    (he : (b.addPage.run rest).close.error = none) :
    pageStarts [.close] (b.addPage.run rest) = [] ∧ ∃ pages : List (DrawnPage Float),
      (b.addPage.run rest).close.history.toList = pages.flatMap DrawnPage.calls ∧
      pages.length = (b.addPage.run rest).close.pageCount ∧
      (∀ p ∈ pages, ∀ size, .page size ∉ p.header ++ p.body ++ p.footer) ∧
      pages.map DrawnPage.header = (pageStarts (.addPage :: rest) b).map (look .header) ∧
      pages.map DrawnPage.footer =
        ((pageStarts (.addPage :: rest) b).tail ++ [(b.addPage.run rest).graphics]).map
          (look .footer) := by
  have hsteps : ∀ s ∈ .addPage :: rest, s.InFlow := List.forall_mem_cons.mpr ⟨.inr rfl, hrest⟩
  have hrun : (b.addPage.run rest).error = none := hb.run_error hsteps he
  have hsound : (b.addPage.run rest).frame.Sound := by
    obtain ⟨calls, hdraws, -⟩ := run_prints hsteps hb.sound
    exact hdraws.sound hb.sound
  obtain ⟨-, pages, last, hbanded⟩ := hb.run_banded hR hdevice hlook hrest hrun
  have hpages : (b.addPage.run rest).close.pageCount = (b.addPage.run rest).pageCount := by
    rw [close_pageCount hsound he, paged, if_neg hbanded.begun]
  refine ⟨?_, hbanded.close hb.sound hlook he⟩
  change List.replicate ((b.addPage.run rest).close.pageCount -
    (b.addPage.run rest).pageCount) _ ++ [] = []
  rw [hpages, Nat.sub_self]
  rfl

/-- A document without sections gets its only page when it is closed. -/
theorem Unused.pageStarts_close {b : Canvas Float D} (hb : Unused b) (he : b.close.error = none) :
    pageStarts [.close] b = pageStarts [.addPage] b := by
  have hpages : b.close.pageCount = b.addPage.pageCount := by
    rw [close_pageCount hb.sound he, paged, if_pos hb.pageCount]
  change List.replicate (b.close.pageCount - b.pageCount) _ ++ [] =
    List.replicate (b.addPage.pageCount - b.pageCount) _ ++ []
  rw [hpages]

/-- The pages of a document, started by the first step of its body or, without one, at the end. -/
theorem Unused.document_banded {b : Canvas Float D} (hb : Unused b) (hR : Agreement R)
    (hdevice : R b.device b.device) {look : Origin → Graphics Float → List (Call Float)}
    (hlook : Looks R b look) {steps : List (Step Float)} (hsteps : ∀ s ∈ steps, s.InFlow)
    (hopens : steps = [] ∨ ∃ rest, steps = .addPage :: rest)
    (he : (b.run steps).close.error = none) :
    ∃ pages : List (DrawnPage Float),
      (b.run steps).close.history.toList = pages.flatMap DrawnPage.calls ∧
      pages.length = (b.run steps).close.pageCount ∧
      (∀ p ∈ pages, ∀ size, .page size ∉ p.header ++ p.body ++ p.footer) ∧
      pages.map DrawnPage.header = (pageStarts (steps ++ [.close]) b).map (look .header) ∧
      pages.map DrawnPage.footer =
        ((pageStarts (steps ++ [.close]) b).tail ++ [(b.run steps).graphics]).map
          (look .footer) := by
  rcases hopens with rfl | ⟨rest, rfl⟩
  · have hnone : ∀ s ∈ ([] : List (Step Float)), s.InFlow := nofun
    have hclose : (b.run []).close = (b.addPage.run []).close := (addPage_close hb).symm
    have hgraphics : (b.run []).graphics = (b.addPage.run []).graphics := by
      obtain ⟨-, -, hkept⟩ := addPage_home hb.sound hb.error
      exact hkept.symm
    have hstarts : pageStarts ([] ++ [.close]) b = pageStarts [.addPage] b := hb.pageStarts_close he
    rw [hclose] at he ⊢
    rw [hgraphics, hstarts]
    exact (hb.close_banded hR hdevice hlook hnone he).2
  · have hrest : ∀ s ∈ rest, s.InFlow := fun s hs ↦ hsteps s (List.mem_cons_of_mem _ hs)
    obtain ⟨hend, hpages⟩ := hb.close_banded hR hdevice hlook hrest he
    have hstarts :
        pageStarts (.addPage :: rest ++ [.close]) b = pageStarts (.addPage :: rest) b := by
      rw [pageStarts_append]
      exact (congrArg (pageStarts (.addPage :: rest) b ++ ·) hend).trans (List.append_nil _)
    rw [hstarts]
    exact hpages

/-- The graphics state anywhere in the body of a document that is drawn. -/
theorem Unused.run_restyled {b : Canvas Float D} (hb : Unused b) (hR : Agreement R)
    (hdevice : R b.device b.device) {look : Origin → Graphics Float → List (Call Float)}
    (hlook : Looks R b look)
    {before after : List (Step Float)} (hsteps : ∀ s ∈ before ++ after, s.InFlow)
    (hopens : before ++ after = [] ∨ ∃ rest, before ++ after = .addPage :: rest)
    (he : (b.run (before ++ after)).error = none) :
    (b.run before).graphics = before.foldl b.restyled b.graphics := by
  cases before with
  | nil => rfl
  | cons s before =>
      obtain ⟨rest, hrest⟩ := hopens.resolve_left (by simp)
      obtain ⟨rfl, -⟩ := List.cons.inj hrest
      have hbefore : ∀ s ∈ before, s.InFlow := fun s hs ↦
        hsteps s (List.mem_cons_of_mem _ (List.mem_append_left after hs))
      have hafter : ∀ s ∈ after, s.InFlow := fun s hs ↦
        hsteps s (List.mem_append_right _ hs)
      obtain ⟨footer, header, hstarted⟩ := addPage_started hb.sound hb.error
      have hopened : b.addPage.frame.Sound := hb.sound.of_eq hstarted.frame
      obtain ⟨calls, hdraws, -⟩ := run_prints hbefore hopened
      have hrun : (b.addPage.run before).error = none := by
        refine (run_prints hafter (hdraws.sound hopened)).error_eq_none ?_
        rw [Canvas.run, Canvas.run, ← List.foldl_append]
        exact he
      exact (hb.run_banded hR hdevice hlook hbefore hrun).1

/-! ## Every report -/

/-- Bands of a report show nothing of a body but its graphics states: what they look like is known
for every graphics state before there is a body.  Whatever sections are drawn then, every header
looks as the state makes it in which its page starts, and every footer as the state makes it in
which the next page starts, or the document ends.  These states are what the fonts, colours and line
widths that were set before make of the first. -/
def BandsFollow (files : Files) (r : Report) (ctx : Context) (device : D)
    (setup : PageSetup Float) : Prop :=
  let blank := (start files r ctx (.new device setup)).canvas
  ∃ look : Origin → Graphics Float → List (Call Float),
    ∀ (sections : List Section) (c : Canvas Float D),
      draw files { r with sections } ctx (.new device setup) = (c, .ok ()) →
        let steps := bodySteps ctx true sections
        let states := pageStarts (steps ++ [.close]) blank
        (∃ pages : List (DrawnPage Float),
          c.history.toList = pages.flatMap DrawnPage.calls ∧ pages.length = c.pageCount ∧
          (∀ p ∈ pages, ∀ size, .page size ∉ p.header ++ p.body ++ p.footer) ∧
          pages.map DrawnPage.header = states.map (look .header) ∧
          pages.map DrawnPage.footer =
            (states.tail ++ [(blank.run steps).graphics]).map (look .footer)) ∧
        ∀ before after, steps = before ++ after →
          (blank.run before).graphics = before.foldl blank.restyled blank.graphics

theorem bandsFollow (hR : Agreement R) (files : Files) (r : Report) (ctx : Context) {device : D}
    (hdevice : R device device) (setup : PageSetup Float) :
    BandsFollow files r ctx device setup := by
  obtain ⟨hblank, hbands⟩ := start_unused files r ctx device setup
  have hfonts : R (start files r ctx (.new device setup)).canvas.device
      (start files r ctx (.new device setup)).canvas.device :=
    start_device (P := fun d ↦ R d d) hR.registerFont files r ctx hdevice setup
  obtain ⟨look, hlook⟩ := exists_look hR hblank.sound hfonts
    fun bands h ↦ bandsOf_placed ctx r bands (hbands.symm.trans h)
  refine ⟨look, fun sections c h ↦ ?_⟩
  obtain ⟨heq, he⟩ := draw_run h
  have hflow := bodySteps_inFlow ctx true sections
  have hopens : bodySteps ctx true sections = [] ∨
      ∃ rest, bodySteps ctx true sections = .addPage :: rest := by
    cases sections with
    | nil => exact .inl rfl
    | cons part parts => exact .inr (bodySteps_cons ctx part parts)
  rw [heq] at he ⊢
  refine ⟨hblank.document_banded hR hfonts hlook hflow hopens he, fun before after hsteps ↦ ?_⟩
  rw [hsteps] at hflow hopens
  refine hblank.run_restyled hR hfonts hlook hflow hopens (hblank.run_error hflow ?_)
  rw [← hsteps]
  exact he

/-- The bands of every report follow the graphics states of its body, on documents and on a
recorder. -/
theorem bands_follow_graphics (files : Files) (r : Report) (ctx : Context)
    (setup : PageSetup Float) :
    (∀ compress : Bool, files.Consistent →
      BandsFollow files r ctx ({ files, compress } : Pdf.Draft) setup) ∧
    ∀ recorder : Recorder Float, BandsFollow files r ctx recorder setup := by
  constructor
  · intro compress hfiles
    exact bandsFollow Pdf.Draft.agreement files r ctx (Pdf.Draft.Agrees.blank hfiles compress) setup
  · intro recorder
    exact bandsFollow Recorder.agreement files r ctx ⟨rfl, rfl⟩ setup

theorem bands_follow_graphics_letter :
    ∃ (c : Canvas Float Pdf.Draft) (look : Origin → Graphics Float → List (Call Float))
      (pages : List (DrawnPage Float)),
      draw blankRecorder.files letter letterContext
        (.new { files := blankRecorder.files } letter.setup) = (c, .ok ()) ∧
      c.history.toList = pages.flatMap DrawnPage.calls ∧
      pages.map DrawnPage.header =
        (pageStarts (bodySteps letterContext true letter.sections ++ [.close])
          (start blankRecorder.files letter letterContext
            (.new ({ files := blankRecorder.files } : Pdf.Draft) letter.setup)).canvas).map
          (look .header) := by
  obtain ⟨c, hc⟩ := draw_succeeds blankRecorder.files letter_imageless letterContext
    ({ files := blankRecorder.files } : Pdf.Draft) letter.setup
  have hfiles : blankRecorder.files.Consistent := nofun
  obtain ⟨look, hlook⟩ :=
    (bands_follow_graphics blankRecorder.files letter letterContext letter.setup).1 false hfiles
  obtain ⟨⟨pages, hhistory, -, -, hheaders, -⟩, -⟩ := hlook letter.sections c hc
  exact ⟨c, look, pages, hc, hhistory, hheaders⟩

/-! ## A style that shows -/

/-- A header without a style over a body that turns red. -/
def stained : Report :=
  { header := some
      { enabled := true, height := 10
        elements := [⟨none, 0, .text { content := "head" }⟩] }
    sections :=
      [ { name := "main"
          elements :=
            [ ⟨none, 0, .band (.text { content := "one", style := some "red" })⟩,
              ⟨none, 0, .pageBreak⟩,
              ⟨none, 0, .band (.text { content := "two" })⟩ ] } ] }

def stainedContext : Context :=
  { styles := ⟨[{ name := "red", textColor := some ⟨200, 0, 0⟩ }]⟩, data := .null }

theorem stained_imageless : stained.Imageless := by
  refine ⟨?_, ?_, ?_⟩ <;> simp [stained, Layout.shown, Report.Content.Imageless,
    Report.BandContent.Imageless, Report.Band.Imageless]

/-- The colour of a text that is drawn in a header. -/
def headerColor? : Origin × Call Float → Option Color
  | (.header, .mark (.text _ _ _ _ _ color)) => some color
  | _ => none

theorem headerColors_page (p : DrawnPage Float) :
    p.calls.filterMap headerColor? = (on .header p.header).filterMap headerColor? := by
  have hbody : (on .body p.body).filterMap headerColor? = [] :=
    List.filterMap_eq_nil_iff.mpr fun entry hentry ↦ by
      obtain ⟨call, -, rfl⟩ := List.mem_map.mp hentry
      rfl
  have hfooter : (on .footer p.footer).filterMap headerColor? = [] :=
    List.filterMap_eq_nil_iff.mpr fun entry hentry ↦ by
      obtain ⟨call, -, rfl⟩ := List.mem_map.mp hentry
      rfl
  have hstart : headerColor? p.start = none := rfl
  rw [DrawnPage.calls, DrawnPage.top, List.filterMap_append, List.filterMap_append,
    List.filterMap_cons_none hstart, hbody, hfooter, List.append_nil, List.append_nil]

/-- Not every report has bands that look the same on every page: a header without a style of its own
turns red with the body. -/
theorem not_bands_alike :
    ¬ ∀ (files : Files) (r : Report) (ctx : Context) (recorder : Recorder Float)
      (c : Canvas Float (Recorder Float)),
      draw files r ctx (.new recorder r.setup) = (c, .ok ()) →
        ∃ pages : List (DrawnPage Float), c.history.toList = pages.flatMap DrawnPage.calls ∧
          pages.length = c.pageCount ∧
          ∀ p ∈ pages, ∀ q ∈ pages, p.header = q.header ∧ p.footer = q.footer := by
  intro halike
  obtain ⟨c, hc⟩ := draw_succeeds blankRecorder.files stained_imageless stainedContext
    blankRecorder stained.setup
  have hrun : (draw blankRecorder.files stained stainedContext
      (.new blankRecorder stained.setup)).1 = c := congrArg Prod.fst hc
  have hcolors : (draw blankRecorder.files stained stainedContext
      (.new blankRecorder stained.setup)).1.history.toList.filterMap headerColor? =
        [.black, ⟨200, 0, 0⟩] := by decide +kernel
  have hcount : (draw blankRecorder.files stained stainedContext
      (.new blankRecorder stained.setup)).1.pageCount = 2 := by decide +kernel
  obtain ⟨pages, hhistory, hlength, hsame⟩ := halike _ _ _ _ c hc
  rw [hrun] at hcolors hcount
  rw [hcount] at hlength
  obtain ⟨p, q, rfl⟩ := List.length_eq_two.mp hlength
  obtain ⟨hheader, -⟩ := hsame p (by simp) q (by simp)
  -- both pages would show the same colours, but red is there once
  rw [hhistory, List.filterMap_flatMap, List.flatMap_cons, List.flatMap_singleton,
    headerColors_page, headerColors_page, hheader] at hcolors
  have hred := congrArg (List.count (⟨200, 0, 0⟩ : Color)) hcolors
  rw [List.count_append] at hred
  have hone : List.count (⟨200, 0, 0⟩ : Color) [.black, ⟨200, 0, 0⟩] = 1 := by decide
  omega

end Session

end PagedReport
