import PagedReport.Proofs.Canvas.Pages
import PagedReport.Proofs.Canvas.Recording
import PagedReport.Proofs.Layout.Success

/-!
# The bands of a document

Every page of a finished document has one header and one footer, and nothing else of them is drawn
anywhere.
-/

namespace PagedReport

namespace Session

open Canvas

variable {D Output : Type} [Device Float D Output]

theorem drawSections_drawn {parts : List Report.Section} {s s' : Session D}
    (hs : Unused s.canvas) (hstarted : s.started = false)
    (h : drawSections parts s = (s', .ok ())) :
    s'.canvas.history = #[] ∧ s'.canvas.pageCount = 0 ∨
      ∃ pages last, Drawn pages last s'.canvas := by
  cases parts with
  | nil =>
      obtain ⟨rfl, -⟩ := Prod.mk.inj h
      exact .inl ⟨hs.history, hs.pageCount⟩
  | cons part parts =>
      obtain ⟨⟨calls, hdraws⟩, herror⟩ := drawSections_cons hs.sound h
      have hopened : s.opened part = s.canvas.addPage := by simp [opened, startsPage, hstarted]
      rw [hopened] at hdraws
      have hpage : Draws hook s.canvas [] s.canvas.addPage := Draws.refl.page (.inl hs.pageCount)
      obtain ⟨last, hdrawn⟩ := addPage_drawn hs.sound (hdraws.error_eq_none herror) hs.history
        hs.pageCount
      exact .inr (hdraws.drawn (hpage.sound hs.sound) herror hdrawn)

/-- What a finished document has drawn is a list of pages, as many as the canvas has counted.  On
the frame that was set up for the report each is begun once, starts with one run of the header and
ends with one run of the footer, and no page is begun in between.  A band that is not shown draws
nothing. -/
theorem draw_pages (files : Files) (r : Report) (ctx : Context) (device : D)
    (setup : PageSetup Float) {c : Canvas Float D}
    (h : draw files r ctx (.new device setup) = (c, .ok ())) :
    ∃ pages : List (DrawnPage Float),
      c.history.toList = pages.flatMap DrawnPage.calls ∧
      pages.length = c.pageCount ∧ pages ≠ [] ∧
      CompletePages D (start files r ctx (.new device setup)).canvas.frame pages ∧
      (start files r ctx (.new device setup)).canvas.decorator = bandsOf ctx r ∧
      (Layout.shown r.header = none → ∀ p ∈ pages, p.header = []) ∧
      (Layout.shown r.footer = none → ∀ p ∈ pages, p.footer = []) := by
  obtain ⟨hunused, hbands⟩ := start_unused files r ctx device setup
  unfold draw at h
  split at h
  · cases h
  · next s hsections =>
      obtain ⟨rfl, hclose⟩ := Prod.mk.inj h
      obtain ⟨⟨calls, hdraws, -⟩, -⟩ := drawSections_prints hunused.sound hsections
      obtain ⟨pages, hhistory, hcount, hne, hcomplete⟩ := close_complete
        (hdraws.sound hunused.sound) (check_eq_ok.mp hclose)
        (drawSections_drawn hunused rfl hsections)
      rw [hdraws.frame_eq hunused.sound] at hcomplete
      -- a band that is not shown has no steps
      refine ⟨pages, hhistory, hcount, hne, hcomplete, hbands, ?_, ?_⟩
      · intro hshown p hp
        obtain ⟨i, hi, rfl⟩ := List.mem_iff_getElem.mp hp
        exact (hcomplete i hi).header.eq_nil fun d hd ↦
          (bandsOf_eq_some ctx (hbands.symm.trans hd)).1.trans (by rw [hshown]; rfl)
      · intro hshown p hp
        obtain ⟨i, hi, rfl⟩ := List.mem_iff_getElem.mp hp
        exact (hcomplete i hi).footer.eq_nil fun d hd ↦
          (bandsOf_eq_some ctx (hbands.symm.trans hd)).2.trans (by rw [hshown]; rfl)

theorem draw_pages_letter :
    ∃ c : Canvas Float (Recorder Float),
      draw blankRecorder.files letter letterContext (.new blankRecorder letter.setup) =
        (c, .ok ()) ∧
      ∃ pages : List (DrawnPage Float), c.history.toList = pages.flatMap DrawnPage.calls ∧
        pages.length = c.pageCount ∧
        CompletePages (Recorder Float)
          (start blankRecorder.files letter letterContext
            (.new blankRecorder letter.setup)).canvas.frame pages := by
  obtain ⟨c, heq⟩ := draw_succeeds blankRecorder.files letter_imageless letterContext blankRecorder
    letter.setup
  obtain ⟨pages, hhistory, hcount, -, hcomplete, -⟩ := draw_pages _ letter letterContext _ _ heq
  exact ⟨c, heq, pages, hhistory, hcount, hcomplete⟩

/-! ## Recorded pages -/

/-- The history of a finished document is what a recorder was asked to draw. -/
theorem draw_recorded (files : Files) (r : Report) (ctx : Context) {recorder : Recorder Float}
    (hrecorder : recorder.calls = #[]) (setup : PageSetup Float)
    {c : Canvas Float (Recorder Float)}
    (h : draw files r ctx (.new recorder setup) = (c, .ok ())) : c.Recorded := by
  obtain ⟨hunused, -⟩ := start_unused files r ctx recorder setup
  have hcalls : (start files r ctx (.new recorder setup)).canvas.device.calls = #[] :=
    start_device (P := fun d : Recorder Float ↦ d.calls = #[]) Recorder.registerFont_calls files r
      ctx hrecorder setup
  have hstart : (start files r ctx (.new recorder setup)).canvas.Recorded := by
    rw [Recorded, hcalls, hunused.history]
    rfl
  unfold draw at h
  split at h
  · cases h
  · next s hsections =>
      obtain ⟨rfl, hclose⟩ := Prod.mk.inj h
      obtain ⟨⟨calls, hdraws, -⟩, -⟩ := drawSections_prints hunused.sound hsections
      exact (hstart.draws hdraws hunused.sound).close (hdraws.sound hunused.sound)
        (check_eq_ok.mp hclose)

end Session

end PagedReport
