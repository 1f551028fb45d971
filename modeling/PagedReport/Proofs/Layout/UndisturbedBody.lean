import PagedReport.Proofs.Canvas.Recording
import PagedReport.Proofs.Layout.TwinRuns
import PagedReport.Proofs.Pdf.Agreement

/-!
# Bodies under bands

A header and a footer share the canvas with the body, but leave no trace in it: drawn without them
it is the same body on the same pages.
-/

namespace PagedReport

namespace Session

open Canvas

/-- A report with and without its bands, on documents and on a recorder.  The calls of the body are
those that start pages and all that is drawn between, so they tell the page of each. -/
theorem body_undisturbed (files : Files) {r : Report}
    (hr : ∀ part ∈ r.sections, ∀ e ∈ part.elements, e.content.Columned) (ctx : Context)
    (setup : PageSetup Float) :
    (∀ (compress : Bool) (c d : Canvas Float Pdf.Draft), files.Consistent →
      draw files r ctx (.new { files, compress } setup) = (c, .ok ()) →
      draw files r.unbanded ctx (.new { files, compress } setup) = (d, .ok ()) →
      d.bodyCalls = c.bodyCalls ∧ d.pageCount = c.pageCount) ∧
    ∀ (recorder : Recorder Float) (c d : Canvas Float (Recorder Float)),
      draw files r ctx (.new recorder setup) = (c, .ok ()) →
      draw files r.unbanded ctx (.new recorder setup) = (d, .ok ()) →
      d.bodyCalls = c.bodyCalls ∧ d.pageCount = c.pageCount := by
  constructor
  · intro compress c d hfiles hc hd
    exact draw_twin Pdf.Draft.agreement files hr ctx (Pdf.Draft.Agrees.blank hfiles compress) setup
      hc hd
  · intro recorder c d hc hd
    exact draw_twin Recorder.agreement files hr ctx ⟨rfl, rfl⟩ setup hc hd

theorem letter_columned : ∀ part ∈ letter.sections, ∀ e ∈ part.elements, e.content.Columned := by
  simp [letter, Report.Content.Columned]

theorem letter_unbanded_imageless : letter.unbanded.Imageless :=
  ⟨letter_imageless.sections, nofun, nofun⟩

theorem body_undisturbed_letter :
    ∃ c d : Canvas Float Pdf.Draft,
      draw blankRecorder.files letter letterContext
        (.new { files := blankRecorder.files } letter.setup) = (c, .ok ()) ∧
      draw blankRecorder.files letter.unbanded letterContext
        (.new { files := blankRecorder.files } letter.setup) = (d, .ok ()) ∧
      d.bodyCalls = c.bodyCalls ∧ d.pageCount = c.pageCount := by
  obtain ⟨c, hc⟩ := draw_succeeds blankRecorder.files letter_imageless letterContext
    ({ files := blankRecorder.files } : Pdf.Draft) letter.setup
  obtain ⟨d, hd⟩ := draw_succeeds blankRecorder.files letter_unbanded_imageless letterContext
    ({ files := blankRecorder.files } : Pdf.Draft) letter.setup
  have hfiles : blankRecorder.files.Consistent := nofun
  obtain ⟨hdrafts, -⟩ := body_undisturbed blankRecorder.files letter_columned letterContext
    letter.setup
  exact ⟨c, d, hc, hd, hdrafts false c d hfiles hc hd⟩

end Session

end PagedReport
