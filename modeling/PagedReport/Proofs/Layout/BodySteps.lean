import PagedReport.Proofs.Layout.Stages

/-!
# Reports as steps

If there is no error after any stage of a report, it is one run of the steps of its body, and then
closed.
-/

namespace PagedReport

open Report

namespace Layout

/-- The steps of a section; the first section always starts a page. -/
def sectionSteps (ctx : Context) (first : Bool) (part : Section) : List (Step Float) :=
  (if first || part.breakBefore then [.addPage] else []) ++ part.elements.flatMap (element ctx) ++
    if part.breakAfter then [.addPage] else []

def bodySteps (ctx : Context) : Bool → List Section → List (Step Float)
  | _, [] => []
  | first, part :: parts => sectionSteps ctx first part ++ bodySteps ctx false parts

theorem stageSteps_page (ctx : Context) (sectionName : String) (condition : Bool) :
    stageSteps ctx (if condition then [.page sectionName] else []) =
      if condition then [.addPage] else [] := by
  cases condition <;> rfl

theorem stageSteps_elements (ctx : Context) (sectionName : String)
    (elements : List (Element Content)) :
    stageSteps ctx (elements.mapIdx (.element sectionName)) = elements.flatMap (element ctx) := by
  have hsteps : (elements.mapIdx (Stage.element sectionName)).map (Stage.steps ctx) =
      elements.map (element ctx) :=
    List.ext_getElem (by simp) fun i _ _ ↦ by simp [Stage.steps]
  rw [stageSteps, List.flatMap_def, hsteps, List.flatMap_def]

theorem stageSteps_section (ctx : Context) (first : Bool) (part : Section) :
    stageSteps ctx (sectionStages first part) = sectionSteps ctx first part := by
  rw [sectionStages, stageSteps_append, stageSteps_append, stageSteps_page, stageSteps_page,
    stageSteps_elements, sectionSteps]

theorem stageSteps_body (ctx : Context) (first : Bool) (parts : List Section) :
    stageSteps ctx (bodyStages first parts) = bodySteps ctx first parts := by
  induction parts generalizing first with
  | nil => rfl
  | cons part parts ih => rw [bodyStages, stageSteps_append, stageSteps_section, ih, bodySteps]

theorem bodySteps_inFlow (ctx : Context) (first : Bool) (parts : List Section) :
    ∀ s ∈ bodySteps ctx first parts, s.InFlow := by
  intro s hs
  rw [← stageSteps_body] at hs
  obtain ⟨stage, hstage, hs⟩ := List.mem_flatMap.mp hs
  exact steps_inFlow ctx (bodyStages_ne first parts stage hstage) s hs

/-- A body starts with its first page. -/
theorem bodySteps_cons (ctx : Context) (part : Section) (parts : List Section) :
    ∃ rest, bodySteps ctx true (part :: parts) = .addPage :: rest := ⟨_, rfl⟩

end Layout

namespace Session

open Canvas Layout

variable {D Output : Type} [Device Float D Output]

/-- A report that is drawn is the run of its steps, closed. -/
theorem draw_run {files : Files} {r : Report} {ctx : Context} {device : D}
    {setup : PageSetup Float} {c : Canvas Float D}
    (h : draw files r ctx (.new device setup) = (c, .ok ())) :
    c = ((start files r ctx (.new device setup)).canvas.run
        (bodySteps ctx true r.sections)).close ∧ c.error = none := by
  obtain ⟨-, hclose⟩ := draw_stages h rfl
  obtain ⟨herror, hend⟩ := draw_stages h (List.append_nil (stages r)).symm
  rw [← stageSteps_body]
  exact ⟨hclose, hend ▸ herror⟩

end Session

end PagedReport
