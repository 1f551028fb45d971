import PagedReport.Proofs.Layout.Success

/-!
# The text of the body

Pages, line breaks and justification neither lose text nor repeat or move it: what the body of a
document shows is the text of its report, spaces apart.
-/

namespace PagedReport

namespace Session

open Canvas

variable {D Output : Type} [Device Float D Output]

/-- The text that the body of a canvas shows, without spaces. -/
def bodyText (c : Canvas Float D) : List Char := unspaced (c.bodyCalls.flatMap Call.chars)

theorem bodyText_eq {files : Files} {r : Report} {ctx : Context} {device : D}
    {setup : PageSetup Float} {s : Session D}
    (h : drawSections r.sections (start files r ctx (.new device setup)) = (s, .ok ())) :
    bodyText s.canvas = unspaced (Report.sectionsText ctx.helpers ctx.data r.sections) := by
  obtain ⟨hunused, -⟩ := start_unused files r ctx device setup
  obtain ⟨⟨calls, hdraws, hchars⟩, herror⟩ := drawSections_prints hunused.sound h
  have hempty : (start files r ctx (.new device setup)).canvas.bodyCalls = [] := by
    simp [bodyCalls, hunused.history]
  rw [bodyText, hdraws.bodyCalls_chars hunused.sound, hempty]
  exact hchars (herror hunused.error)

/-- The body shows the text of the sections, which depends on the data and not on pages.  So it is
the same text on any other pages, with any other fonts, styles and bands. -/
theorem bodyText_exact (files : Files) (r : Report) (ctx : Context) (device : D)
    (setup : PageSetup Float) {s : Session D}
    (h : drawSections r.sections (start files r ctx (.new device setup)) = (s, .ok ())) :
    bodyText s.canvas = unspaced (Report.sectionsText ctx.helpers ctx.data r.sections) ∧
      ∀ (files' : Files) (r' : Report) (ctx' : Context) (device' : D) (setup' : PageSetup Float)
        (s' : Session D), r'.sections = r.sections → ctx'.helpers = ctx.helpers →
        ctx'.data = ctx.data →
        drawSections r'.sections (start files' r' ctx' (.new device' setup')) = (s', .ok ()) →
        bodyText s'.canvas = bodyText s.canvas := by
  refine ⟨bodyText_eq h, ?_⟩
  intro files' r' ctx' device' setup' s' hsections hhelpers hdata h'
  rw [bodyText_eq h', bodyText_eq h, hsections, hhelpers, hdata]

theorem bodyText_exact_letter :
    ∃ s : Session (Recorder Float),
      drawSections letter.sections (start blankRecorder.files letter letterContext
        (.new blankRecorder letter.setup)) = (s, .ok ()) ∧
      bodyText s.canvas = unspaced
        (Report.sectionsText letterContext.helpers letterContext.data letter.sections) := by
  obtain ⟨s, heq, -⟩ := drawSections_succeeds letter_imageless.sections
    (start_sane blankRecorder.files letter_imageless letterContext blankRecorder letter.setup)
  exact ⟨s, heq, (bodyText_exact _ letter letterContext _ _ heq).1⟩

example : unspaced (Report.sectionsText letterContext.helpers letterContext.data letter.sections) =
    "DearAda,hereitis.no1\u2022Ada\u2022Bo".toList := by
  decide +kernel

end Session

end PagedReport
