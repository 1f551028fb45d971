import PagedReport.Generator.Drawing
import PagedReport.Proofs.Canvas.Refusals
import PagedReport.Proofs.Files
import PagedReport.Proofs.Layout.Stages
import PagedReport.Proofs.Layout.Success

/-!
# Failures of reports

A report fails exactly if the device refuses something while it is drawn, in a body or in a band.
The first refusal is what is reported, with the stage during which it happened, and nothing is drawn
after that stage or written to a file.
-/

namespace PagedReport

open Report Layout

namespace Session

open Canvas

variable {D Output : Type} [Device Float D Output]

/-! ## Stages on a device that takes note -/

theorem registerFont_noting (files : Files) (ctx : Context) (c : Canvas Float D) (f : FontFile) :
    registerFont files ctx c.noting f = (registerFont files ctx c f).noting := by
  unfold registerFont
  dsimp only
  cases files (ctx.fontPath f.file) with
  | error e => rfl
  | ok data =>
      have hnoting : Device.registerFont (.ofText f.family f.style) data c.noting.device =
          (Device.registerFont (.ofText f.family f.style) data c.device).map (⟨·, []⟩) := rfl
      simp only [Canvas.registerFont, hnoting]
      cases Device.registerFont (.ofText f.family f.style) data c.device <;> rfl

theorem start_noting (files : Files) (r : Report) (ctx : Context) (c : Canvas Float D) :
    (start files r ctx c.noting).canvas = (start files r ctx c).canvas.noting := by
  have hfonts (fonts : List FontFile) (c : Canvas Float D) :
      fonts.foldl (registerFont files ctx) c.noting =
        (fonts.foldl (registerFont files ctx) c).noting := by
    induction fonts generalizing c with
    | nil => rfl
    | cons f fonts ih => rw [List.foldl_cons, List.foldl_cons, registerFont_noting, ih]
  have hbefore : c.noting.run (setupSteps r ctx).1 = (c.run (setupSteps r ctx).1).noting := rfl
  unfold start
  dsimp only
  rw [hbefore, hfonts]
  unfold setupSteps Layout.bands
  dsimp only
  split <;> rfl

/-- The same stages on a device that goes on where `device` refuses, and takes note of it. -/
def noted (files : Files) (r : Report) (ctx : Context) (device : D) (setup : PageSetup Float)
    (stages : List Stage) : Canvas Float (Noting D) :=
  drawn files r ctx ⟨device, []⟩ setup stages

section

variable (files : Files) (r : Report) (ctx : Context) (device : D) (setup : PageSetup Float)

theorem start_calm : (start files r ctx (.new device setup)).canvas.Calm := by
  obtain ⟨hunused, -⟩ := start_unused files r ctx device setup
  exact ⟨hunused.error, hunused.sound.isOpen, hunused.sound.plain⟩

theorem noted_append (before after : List Stage) :
    noted files r ctx device setup (before ++ after) =
      (noted files r ctx device setup before).run (stageSteps ctx after) := drawn_append ..

theorem refused_append (before after : List Stage) :
    (noted files r ctx device setup before).device.refused <+:
      (noted files r ctx device setup (before ++ after)).device.refused := by
  obtain ⟨demands, hmet, -, -⟩ :=
    Demands.run (stageSteps ctx after) (noted files r ctx device setup before)
  rw [noted_append]
  exact Noting.refused_meetAll hmet

theorem follows_stages {before : List Stage} (hbefore : ∀ stage ∈ before, stage ≠ .close) :
    Follows (drawn files r ctx device setup before) (noted files r ctx device setup before) := by
  have hstart : Follows (start files r ctx (.new device setup)).canvas
      (start files r ctx (.new (Noting.mk device []) setup)).canvas :=
    .inl ⟨start_noting files r ctx (.new device setup), start_calm files r ctx device setup⟩
  refine hstart.run fun s hs ↦ ?_
  obtain ⟨stage, hstage, hs⟩ := List.mem_flatMap.mp hs
  exact steps_inFlow ctx (hbefore stage hstage) s hs

/-- After a stage both runs are still the same, or the first has what was noted first. -/
theorem follows_stage {before : List Stage} (hbefore : ∀ stage ∈ before, stage ≠ .close)
    (stage : Stage) :
    noted files r ctx device setup (before ++ [stage]) =
          (drawn files r ctx device setup (before ++ [stage])).noting ∧
        (drawn files r ctx device setup (before ++ [stage])).error = none ∨
      Broken (drawn files r ctx device setup (before ++ [stage]))
        (noted files r ctx device setup (before ++ [stage])) := by
  have hfollows : Follows (drawn files r ctx device setup before)
      (noted files r ctx device setup before) := follows_stages files r ctx device setup hbefore
  by_cases hstage : stage = .close
  · rw [drawn_append, noted_append, hstage]
    exact hfollows.close
  · have hall : ∀ s ∈ before ++ [stage], s ≠ .close := by
      intro s hs
      rcases List.mem_append.mp hs with hs | hs
      · exact hbefore s hs
      · rw [List.mem_singleton.mp hs]
        exact hstage
    exact (follows_stages files r ctx device setup hall).imp_left fun h ↦ ⟨h.1, h.2.error⟩

variable {files r ctx device setup}

/-- A report that is drawn met no refusal. -/
theorem draw_ok {c : Canvas Float D} (h : draw files r ctx (.new device setup) = (c, .ok ())) :
    c = drawn files r ctx device setup (stages r) ∧
      noted files r ctx device setup (stages r) = c.noting := by
  obtain ⟨herror, rfl⟩ := draw_stages h (List.append_nil _).symm
  refine ⟨rfl, ?_⟩
  rcases follows_stage files r ctx device setup (bodyStages_ne true r.sections) .close with
    ⟨heq, -⟩ | ⟨e, he, -⟩
  · exact heq
  · exact nomatch he.symm.trans herror

/-- A report that fails does so with the first refusal, at the stage in which it is met. -/
theorem draw_error {c : Canvas Float D} {failure : GenerationError}
    (h : draw files r ctx (.new device setup) = (c, .error failure)) :
    ∃ before stage after e, stages r = before ++ stage :: after ∧
      noted files r ctx device setup before =
        (drawn files r ctx device setup before).noting ∧
      (drawn files r ctx device setup before).error = none ∧
      (noted files r ctx device setup (before ++ [stage])).device.refused.head? = some e ∧
      failure = stage.failure e ∧
      c = drawn files r ctx device setup (before ++ [stage]) ∧ c.error = some e := by
  have hstart := (start_calm files r ctx device setup).error
  rw [draw_eq hstart] at h
  obtain ⟨before, stage, after, e, hstages, hbefore, rfl, he, rfl⟩ := runStages_error hstart h
  have hbody : ∀ s ∈ before, s ≠ .close := stages_ne hstages
  refine ⟨before, stage, after, e, hstages, ?_, hbefore, ?_, rfl, rfl, he⟩
  · rcases follows_stages files r ctx device setup hbody with ⟨heq, -⟩ | ⟨e', he', -⟩
    · exact heq
    · exact nomatch he'.symm.trans hbefore
  · rcases follows_stage files r ctx device setup hbody stage with ⟨-, hnone⟩ | ⟨e', he', hrefused⟩
    · exact nomatch he.symm.trans hnone
    · rw [Option.some.inj (he.symm.trans he')]
      exact hrefused

end

end Session

namespace Generator

open Session

/-- A generator whose report cannot be drawn writes nothing. -/
theorem generate_error {g : Generator} {r : Report} (hr : g.report = some r) (path : String)
    {disk : Disk} {failure : ReportError}
    (h : (g.render ((Job.fetch (g.paths r)).run disk).2
      (g.blank ((Job.fetch (g.paths r)).run disk).2)).2 = .error failure) :
    ((g.generate path).run disk).1 = disk ∧ ((g.generate path).run disk).2.1 = .error failure := by
  have hfetch : Job.fetch ((g.report.map g.paths).getD []) = Job.fetch (g.paths r) := by
    rw [hr]
    rfl
  obtain ⟨hdisk, -⟩ := Job.fetch_run (g.paths r) disk
  have hrun (next : Files → Job (Outcome Unit)) : (Job.fetch (g.paths r) >>= next).run disk =
      (next ((Job.fetch (g.paths r)).run disk).2).run disk :=
    (Job.run_bind _ next disk).trans (by rw [hdisk])
  rw [generate, hfetch, hrun]
  generalize ((Job.fetch (g.paths r)).run disk).2 = files at h
  have hdocument : ∃ warnings, g.document files .sound = (.error failure, warnings) := by
    unfold document
    rcases hrender : g.render files (g.blank files) with ⟨c, result⟩
    rw [hrender] at h
    obtain rfl : result = .error failure := h
    exact ⟨c.warnings.toList, rfl⟩
  obtain ⟨warnings, hdocument⟩ := hdocument
  rw [hdocument]
  exact ⟨rfl, rfl⟩

variable {D Output : Type} [Device Float D Output]

theorem render_ok {g : Generator} {r : Report} (hr : g.report = some r) {files : Files}
    {c : Canvas Float D} (h : (g.render files c).2 = .ok ()) :
    draw files r (g.context r) c = ((g.render files c).1, .ok ()) := by
  rw [render, hr] at h ⊢
  dsimp only at h ⊢
  generalize draw files r (g.context r) c = outcome at h ⊢
  obtain ⟨d, failure | _⟩ := outcome
  · cases h
  · rfl

theorem render_error {g : Generator} {r : Report} (hr : g.report = some r) {files : Files}
    {c : Canvas Float D} {failure : ReportError} (h : (g.render files c).2 = .error failure) :
    ∃ e, failure = .generation e ∧
      draw files r (g.context r) c = ((g.render files c).1, .error e) := by
  rw [render, hr] at h ⊢
  dsimp only at h ⊢
  generalize draw files r (g.context r) c = outcome at h ⊢
  obtain ⟨d, e | _⟩ := outcome
  · exact ⟨e, (Except.error.inj h).symm, rfl⟩
  · cases h

/-- A report is drawn exactly if nothing is refused on the way.  Otherwise it fails with what is
refused first, as of the stage during which that happens: an element, a page of a section, or the
end of the document.  The stages before it are drawn without an error, those after it are not drawn,
and a file is written only if there is no failure. -/
theorem render_first_refusal {g : Generator} {r : Report} (hr : g.report = some r) (files : Files)
    (device : D) (setup : PageSetup Float) :
    ((g.render files (.new device setup)).2 = .ok () ↔
        (noted files r (g.context r) device setup (stages r)).device.refused = []) ∧
      ((g.render files (.new device setup)).2 = .ok () →
        (g.render files (.new device setup)).1 =
          drawn files r (g.context r) device setup (stages r) ∧
        noted files r (g.context r) device setup (stages r) =
          (g.render files (.new device setup)).1.noting) ∧
      (∀ failure, (g.render files (.new device setup)).2 = .error failure →
        ∃ before stage after e, stages r = before ++ stage :: after ∧
          noted files r (g.context r) device setup before =
            (drawn files r (g.context r) device setup before).noting ∧
          (drawn files r (g.context r) device setup before).error = none ∧
          (noted files r (g.context r) device setup (before ++ [stage])).device.refused.head? =
            some e ∧
          failure = .generation (stage.failure e) ∧
          (g.render files (.new device setup)).1 =
            drawn files r (g.context r) device setup (before ++ [stage])) ∧
      ∀ (path : String) (disk : Disk),
        (((g.generate path).run disk).1 ≠ disk →
          (g.render ((Job.fetch (g.paths r)).run disk).2
            (g.blank ((Job.fetch (g.paths r)).run disk).2)).2 = .ok ()) ∧
        ∀ failure, (g.render ((Job.fetch (g.paths r)).run disk).2
            (g.blank ((Job.fetch (g.paths r)).run disk).2)).2 = .error failure →
          ((g.generate path).run disk).2.1 = .error failure := by
  refine ⟨⟨fun h ↦ ?_, fun hnone ↦ ?_⟩, fun h ↦ draw_ok (render_ok hr h), fun failure h ↦ ?_,
    fun path disk ↦ ⟨fun hwritten ↦ ?_, fun failure h ↦ (generate_error hr path h).2⟩⟩
  · rw [(draw_ok (render_ok hr h)).2]
    rfl
  · cases h : (g.render files (.new device setup)).2 with
    | ok => rfl
    | error failure =>
        -- what is noted first stays the first note
        obtain ⟨failure, -, hdraw⟩ := render_error hr h
        obtain ⟨before, stage, after, e, hstages, -, -, hhead, -⟩ := draw_error hdraw
        have hnotes := refused_append files r (g.context r) device setup (before ++ [stage]) after
        rw [List.append_assoc, List.singleton_append, ← hstages, hnone,
          List.prefix_nil] at hnotes
        rw [hnotes] at hhead
        cases hhead
  · obtain ⟨failure, rfl, hdraw⟩ := render_error hr h
    obtain ⟨before, stage, after, e, hstages, hsame, hbefore, hhead, rfl, hc, -⟩ :=
      draw_error hdraw
    exact ⟨before, stage, after, e, hstages, hsame, hbefore, hhead, rfl, hc⟩
  · cases h : (g.render ((Job.fetch (g.paths r)).run disk).2
      (g.blank ((Job.fetch (g.paths r)).run disk).2)).2 with
    | error failure => exact absurd (generate_error hr path h).1 hwritten
    | ok => rfl

/-- A letter of two pages with a missing image in its footer. -/
def sealedLetter : Report :=
  { footer := some
      { enabled := true, height := 15
        elements := [⟨none, 0, .image { path := "seal.png" }⟩] }
    sections :=
      [ { name := "letter"
          elements :=
            [ ⟨none, 2, .band (.text { content := "Dear Ada," })⟩,
              ⟨none, 0, .pageBreak⟩,
              ⟨none, 0, .band (.text { content := "here it is." })⟩ ] } ] }

theorem render_first_refusal_sealedLetter :
    ({ report := some sealedLetter } : Generator).report = some sealedLetter ∧
      ∃ failure, (render (fun _ ↦ .error .notFound) (.new blankRecorder default)
        { report := some sealedLetter }).2 = .error failure := by
  have hr : ({ report := some sealedLetter } : Generator).report = some sealedLetter := rfl
  obtain ⟨hok, -⟩ := render_first_refusal hr (fun _ ↦ .error .notFound) blankRecorder default
  refine ⟨hr, ?_⟩
  cases h : (render (fun _ ↦ .error .notFound) (.new blankRecorder default)
    { report := some sealedLetter }).2 with
  | error failure => exact ⟨failure, rfl⟩
  | ok =>
      have hrefused := hok.mp h
      have hsome : (noted (fun _ ↦ .error .notFound) sealedLetter
          (context { report := some sealedLetter } sealedLetter) blankRecorder default
          (stages sealedLetter)).device.refused.isEmpty = false := by decide +kernel
      rw [hrefused] at hsome
      cases hsome

end Generator

end PagedReport
