import PagedReport.Canvas.Recorder
import PagedReport.Proofs.Canvas.Failure
import PagedReport.Proofs.Layout.Drawing

/-!
# Reports that are always drawn

Nothing in a report but its images can fail to be drawn.
-/

namespace PagedReport

open Report

def Report.Band.Imageless (b : Band) : Prop := ∀ e ∈ b.elements, e.content.Imageless

/-- A report of which nothing that is drawn needs an image. -/
structure Report.Imageless (r : Report) : Prop where
  sections : ∀ part ∈ r.sections, ∀ e ∈ part.elements, e.content.Imageless
  header : ∀ b, Layout.shown r.header = some b → b.Imageless
  footer : ∀ b, Layout.shown r.footer = some b → b.Imageless

theorem bandsOf_safe (ctx : Context) {r : Report} (hr : r.Imageless) :
    ∀ d, bandsOf ctx r = some d → d.Safe := by
  have hband : ∀ b : Band, b.Imageless → ∀ s ∈ Layout.header ctx b, s.Safe := by
    intro b hb
    exact (Shows.flatMap fun e he ↦ bandElement_measured ctx e (hb e he)).safe.all
  intro d hd
  obtain ⟨hheader, hfooter⟩ := bandsOf_eq_some ctx hd
  constructor
  · rw [hheader]
    cases hshown : Layout.shown r.header with
    | none => exact fun _ hs ↦ absurd hs List.not_mem_nil
    | some b => exact hband b (hr.header b hshown)
  · rw [hfooter]
    cases hshown : Layout.shown r.footer with
    | none => exact fun _ hs ↦ absurd hs List.not_mem_nil
    | some b => exact List.forall_mem_cons.mpr ⟨trivial, hband b (hr.footer b hshown)⟩

namespace Session

open Canvas

variable {D Output : Type} [Device Float D Output]

theorem start_sane (files : Files) {r : Report} (hr : r.Imageless) (ctx : Context) (device : D)
    (setup : PageSetup Float) : (start files r ctx (.new device setup)).canvas.Sane := by
  obtain ⟨hunused, hbands⟩ := start_unused files r ctx device setup
  exact ⟨hunused.error, hunused.sound.isOpen, fun d hd ↦ bandsOf_safe ctx hr d (hbands ▸ hd)⟩

theorem run_sane {steps : List (Step Float)} (hsteps : ∀ s ∈ steps, s.SafeInFlow)
    {c : Canvas Float D} (hc : c.Sane) : (c.run steps).Sane := by
  induction steps generalizing c with
  | nil => exact hc
  | cons s steps ih =>
      refine ih (fun t ht ↦ hsteps t (List.mem_cons_of_mem s ht)) ?_
      rcases hsteps s List.mem_cons_self with hsafe | rfl
      · exact stepWith_sane hook_sane hsafe hc
      · exact addPageWith_sane hook_sane hc

theorem drawElements_succeeds (ctx : Context) (sectionName : String) (index : Nat)
    {elements : List (Element Content)} (helements : ∀ e ∈ elements, e.content.Imageless)
    {c : Canvas Float D} (hc : c.Sane) :
    ∃ d, drawElements ctx sectionName index elements c = (d, .ok ()) ∧ d.Sane := by
  induction elements generalizing index c with
  | nil => exact ⟨c, rfl, hc⟩
  | cons e elements ih =>
      have hrun := run_sane (element_safe ctx e (helements e List.mem_cons_self)).all hc
      obtain ⟨d, heq, hd⟩ := ih (index + 1)
        (fun f hf ↦ helements f (List.mem_cons_of_mem e hf)) hrun
      refine ⟨d, ?_, hd⟩
      simp only [drawElements, check_eq_ok.mpr hrun.error, heq]

theorem drawSection_succeeds {part : Section}
    (hpart : ∀ e ∈ part.elements, e.content.Imageless) {s : Session D} (hs : s.canvas.Sane) :
    ∃ s', s.drawSection part = (s', .ok ()) ∧ s'.canvas.Sane := by
  have hopened : (if s.startsPage part then s.canvas.addPage else s.canvas).Sane := by
    split
    · exact addPageWith_sane hook_sane hs
    · exact hs
  obtain ⟨d, heq, hd⟩ := drawElements_succeeds s.context part.name 0 hpart hopened
  have hlast : d.addPage.Sane := addPageWith_sane hook_sane hd
  simp only [drawSection, check_eq_ok.mpr hopened.error, heq]
  split
  · exact ⟨_, by rw [check_eq_ok.mpr hlast.error], hlast⟩
  · exact ⟨_, rfl, hd⟩

theorem drawSections_succeeds {parts : List Section}
    (hparts : ∀ part ∈ parts, ∀ e ∈ part.elements, e.content.Imageless) {s : Session D}
    (hs : s.canvas.Sane) : ∃ s', drawSections parts s = (s', .ok ()) ∧ s'.canvas.Sane := by
  induction parts generalizing s with
  | nil => exact ⟨s, rfl, hs⟩
  | cons part parts ih =>
      obtain ⟨s', heq, hs'⟩ := drawSection_succeeds (hparts part List.mem_cons_self) hs
      obtain ⟨s'', heq', hs''⟩ := ih (fun p hp ↦ hparts p (List.mem_cons_of_mem part hp)) hs'
      exact ⟨s'', by simp only [drawSections, heq, heq'], hs''⟩

/-- A report without images is always drawn. -/
theorem draw_succeeds (files : Files) {r : Report} (hr : r.Imageless) (ctx : Context) (device : D)
    (setup : PageSetup Float) : ∃ c, draw files r ctx (.new device setup) = (c, .ok ()) := by
  obtain ⟨s, heq, hs⟩ := drawSections_succeeds hr.sections (start_sane files hr ctx device setup)
  refine ⟨s.canvas.close, ?_⟩
  simp only [draw, heq, finish, check_eq_ok.mpr (close_error hs)]

/-! ## A report of this kind -/

/-- A letter with a header and a footer, a wrapped text, a table and a list on another page. -/
def letter : Report :=
  { header := some
      { enabled := true, height := 10
        elements :=
          [ ⟨none, 0, .text { content := "for \x7b\x7b.name\x7d\x7d" }⟩,
            ⟨none, 0, .rule { x₁ := 10, y₁ := 15, x₂ := -10, y₂ := 15, width := 2 }⟩ ] }
    footer := some
      { enabled := true, height := 15
        elements := [⟨none, 0, .text { content := "in haste" }⟩] }
    sections :=
      [ { name := "letter"
          elements :=
            [ ⟨none, 2, .band (.text
                { content := "Dear \x7b\x7b.name\x7d\x7d,\r\nhere it is.", wrap := true })⟩,
              ⟨none, 0, .table { source := "rows", columns := [{ header := "no", field := "n" }] }⟩,
              ⟨none, 0, .pageBreak⟩,
              ⟨none, 0, .list { source := "names" }⟩ ] } ] }

def letterContext : Context :=
  { styles := ⟨[]⟩
    data := .object
      [ ("name", .string "Ada"), ("rows", .array [.object [("n", .string "1")], .null]),
        ("names", .array [.string "Ada", .string "Bo"]) ] }

def blankRecorder : Recorder Float := { files := fun _ ↦ .error .notFound }

theorem letter_imageless : letter.Imageless := by
  refine ⟨?_, ?_, ?_⟩ <;> simp [letter, Layout.shown, Report.Content.Imageless,
    Report.BandContent.Imageless, Report.Band.Imageless]

end Session

end PagedReport
