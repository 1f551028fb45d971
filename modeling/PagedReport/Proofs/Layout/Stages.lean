import PagedReport.Proofs.Layout.Drawing

/-!
# The stages of a report

Drawing a report comes in stages, with a look for errors after each: the pages that are started for
sections, the elements, and the end of the document.  An error ends it with the stage that has it.
-/

namespace PagedReport

open Report

/-- What is drawn between two looks for errors. -/
inductive Stage where
  /-- A page for a section. -/
  | page (sectionName : String)
  | element (sectionName : String) (index : Nat) (e : Element Content)
  | close

namespace Stage

def steps (ctx : Context) : Stage → List (Step Float)
  | page _ => [.addPage]
  | element _ _ e => Layout.element ctx e
  | close => [.close]

/-- How an error is reported that is found after the stage. -/
def failure : Stage → CanvasError → GenerationError
  | page sectionName => .page sectionName
  | element sectionName index e => .element sectionName index e.content.tag
  | close => .document

end Stage

namespace Layout

def sectionStages (first : Bool) (part : Section) : List Stage :=
  (if first || part.breakBefore then [.page part.name] else []) ++
    part.elements.mapIdx (Stage.element part.name) ++
    if part.breakAfter then [.page part.name] else []

/-- The stages of sections, of which the first always starts a page. -/
def bodyStages : Bool → List Section → List Stage
  | _, [] => []
  | first, part :: parts => sectionStages first part ++ bodyStages false parts

def stages (r : Report) : List Stage := bodyStages true r.sections ++ [.close]

def stageSteps (ctx : Context) (stages : List Stage) : List (Step Float) :=
  stages.flatMap (Stage.steps ctx)

theorem stageSteps_append (ctx : Context) (before after : List Stage) :
    stageSteps ctx (before ++ after) = stageSteps ctx before ++ stageSteps ctx after :=
  List.flatMap_append

theorem stageSteps_singleton (ctx : Context) (stage : Stage) :
    stageSteps ctx [stage] = stage.steps ctx := List.append_nil _

/-- The stages before the end only draw and start pages. -/
theorem steps_inFlow (ctx : Context) {stage : Stage} (hstage : stage ≠ .close) :
    ∀ s ∈ stage.steps ctx, s.InFlow := by
  cases stage with
  | page sectionName => exact fun s hs ↦ .inr (List.mem_singleton.mp hs)
  | element sectionName index e => exact (element_shows ctx e).all
  | close => exact absurd rfl hstage

theorem sectionStages_ne (first : Bool) (part : Section) :
    ∀ stage ∈ sectionStages first part, stage ≠ .close := by
  have hpage : ∀ {condition : Bool}, ∀ stage ∈ if condition then [Stage.page part.name] else [],
      stage ≠ .close := by
    intro condition stage hstage
    split at hstage
    · rw [List.mem_singleton.mp hstage]
      nofun
    · cases hstage
  intro stage hstage
  rcases List.mem_append.mp hstage with hstage | hstage
  · rcases List.mem_append.mp hstage with hstage | hstage
    · exact hpage stage hstage
    · obtain ⟨i, hi, rfl⟩ := List.mem_mapIdx.mp hstage
      nofun
  · exact hpage stage hstage

theorem bodyStages_ne (first : Bool) (parts : List Section) :
    ∀ stage ∈ bodyStages first parts, stage ≠ .close := by
  induction parts generalizing first with
  | nil => exact fun _ h ↦ absurd h List.not_mem_nil
  | cons part parts ih =>
      intro stage hstage
      rcases List.mem_append.mp hstage with hstage | hstage
      · exact sectionStages_ne first part stage hstage
      · exact ih false stage hstage

/-- The end is the last stage, so whatever comes before another stage is of the body. -/
theorem stages_ne {r : Report} {before after : List Stage} {stage : Stage}
    (hstages : stages r = before ++ stage :: after) : ∀ s ∈ before, s ≠ .close := by
  have hbody : ∀ s ∈ (stages r).dropLast, s ≠ .close := by
    rw [stages, List.dropLast_concat]
    exact bodyStages_ne true r.sections
  intro s hs
  refine hbody s ?_
  rw [hstages, List.dropLast_append_cons]
  exact List.mem_append_left _ hs

/-- The first page is started before the first element. -/
theorem stages_page {r : Report} {before after : List Stage} {sectionName : String} {index : Nat}
    {e : Element Content} (hstages : stages r = before ++ .element sectionName index e :: after) :
    ∃ first rest, before = .page first :: rest := by
  unfold stages at hstages
  cases before with
  | nil =>
      cases hsections : r.sections with
      | nil =>
          rw [hsections] at hstages
          cases (List.cons.inj hstages).1
      | cons part parts =>
          rw [hsections] at hstages
          cases (List.cons.inj hstages).1
  | cons stage before =>
      cases hsections : r.sections with
      | nil =>
          rw [hsections] at hstages
          exact absurd (List.cons.inj hstages).2 (by simp)
      | cons part parts =>
          rw [hsections] at hstages
          exact ⟨part.name, before, by rw [← (List.cons.inj hstages).1]⟩

end Layout

namespace Session

open Canvas Layout

variable {D Output : Type} [Device Float D Output]

/-- Draws stages up to the first that fails. -/
def runStages (ctx : Context) : List Stage → Canvas Float D →
    Canvas Float D × Except GenerationError Unit
  | [], c => (c, .ok ())
  | stage :: rest, c =>
    let c := c.run (stage.steps ctx)
    match check stage.failure c with
    | .error failure => (c, .error failure)
    | .ok () => runStages ctx rest c

section

variable {ctx : Context} {stages : List Stage} {c d : Canvas Float D}

theorem runStages_append (before after : List Stage) (c : Canvas Float D) :
    runStages ctx (before ++ after) c =
      match runStages ctx before c with
      | (c, .error failure) => (c, .error failure)
      | (c, .ok ()) => runStages ctx after c := by
  induction before generalizing c with
  | nil => rfl
  | cons stage before ih =>
      rw [List.cons_append, runStages, runStages]
      cases check stage.failure (c.run (stage.steps ctx)) with
      | error failure => rfl
      | ok => exact ih _

theorem runStages_ok (h : runStages ctx stages c = (d, .ok ())) :
    d = c.run (stageSteps ctx stages) ∧ (c.error = none → d.error = none) := by
  induction stages generalizing c with
  | nil =>
      obtain ⟨rfl, -⟩ := Prod.mk.inj h
      exact ⟨rfl, id⟩
  | cons stage stages ih =>
      rw [runStages] at h
      split at h
      · cases h
      · next hcheck =>
          obtain ⟨rfl, herror⟩ := ih h
          exact ⟨(List.foldl_append ..).symm, fun _ ↦ herror (check_eq_ok.mp hcheck)⟩

/-- What failed first: everything before it was drawn without an error, and nothing after it. -/
theorem runStages_error {failure : GenerationError} (hc : c.error = none)
    (h : runStages ctx stages c = (d, .error failure)) :
    ∃ before stage after e, stages = before ++ stage :: after ∧
      (c.run (stageSteps ctx before)).error = none ∧
      d = c.run (stageSteps ctx (before ++ [stage])) ∧ d.error = some e ∧
      failure = stage.failure e := by
  induction stages generalizing c with
  | nil => cases h
  | cons stage stages ih =>
      rw [runStages] at h
      split at h
      · next hcheck =>
          obtain ⟨rfl, hfailure⟩ := Prod.mk.inj h
          obtain rfl := Except.error.inj hfailure
          unfold check at hcheck
          split at hcheck
          · next e he =>
              refine ⟨[], stage, stages, e, rfl, hc, ?_, he, (Except.error.inj hcheck).symm⟩
              rw [List.nil_append, stageSteps_singleton]
          · cases hcheck
      · next hcheck =>
          obtain ⟨before, stage', after, e, rfl, hbefore, rfl, he, hfailure⟩ :=
            ih (check_eq_ok.mp hcheck) h
          refine ⟨stage :: before, stage', after, e, rfl, ?_, ?_, he, hfailure⟩
          · exact (congrArg Canvas.error (List.foldl_append ..)).trans hbefore
          · exact (List.foldl_append ..).symm

end

/-! ## Reports in stages -/

theorem drawElements_eq (ctx : Context) (sectionName : String) (index : Nat)
    (elements : List (Element Content)) (c : Canvas Float D) :
    drawElements ctx sectionName index elements c =
      runStages ctx (elements.mapIdx fun i e ↦ .element sectionName (index + i) e) c := by
  induction elements generalizing index c with
  | nil => rfl
  | cons e elements ih =>
      have hrest : (fun i e ↦ Stage.element sectionName (index + (i + 1)) e) =
          fun i e ↦ .element sectionName (index + 1 + i) e := by
        funext i e
        rw [Nat.add_assoc, Nat.add_comm 1 i]
      rw [List.mapIdx_cons, hrest, runStages, drawElements]
      simp only [Stage.steps, Stage.failure, Nat.add_zero]
      cases check (.element sectionName index e.content.tag) (c.run (element ctx e)) with
      | error failure => rfl
      | ok => exact ih (index + 1) _

theorem runStages_page {sectionName : String} (condition : Bool) {c : Canvas Float D}
    (hc : c.error = none) :
    runStages ctx (if condition then [.page sectionName] else []) c =
      (if condition then c.addPage else c,
        check (.page sectionName) (if condition then c.addPage else c)) := by
  cases condition with
  | false => exact Prod.ext rfl (check_eq_ok.mpr hc).symm
  | true =>
      change (match check (.page sectionName) c.addPage with
        | .error failure => (c.addPage, .error failure)
        | .ok () => (c.addPage, .ok ())) = (c.addPage, check (.page sectionName) c.addPage)
      cases check (.page sectionName) c.addPage <;> rfl

theorem drawSection_eq {s : Session D} (hs : s.canvas.error = none) (part : Section) :
    runStages s.context (sectionStages (!s.started) part) s.canvas =
        ((s.drawSection part).1.canvas, (s.drawSection part).2) ∧
      (s.drawSection part).1.context = s.context ∧ (s.drawSection part).1.started = true := by
  unfold sectionStages drawSection startsPage
  rw [runStages_append, runStages_append, runStages_page _ hs]
  dsimp only
  generalize hopened : (if !s.started || part.breakBefore then s.canvas.addPage else s.canvas) = c
  cases hcheck : check (.page part.name) c with
  | error failure => exact ⟨rfl, rfl, rfl⟩
  | ok =>
      have helements := drawElements_eq s.context part.name 0 part.elements c
      simp only [Nat.zero_add] at helements
      dsimp only
      rw [← helements]
      rcases hdrawn : drawElements s.context part.name 0 part.elements c with ⟨d, failure | _⟩
      · exact ⟨rfl, rfl, rfl⟩
      · have hd : d.error = none :=
          (runStages_ok (helements.symm.trans hdrawn)).2 (check_eq_ok.mp hcheck)
        dsimp only
        rw [runStages_page part.breakAfter hd]
        cases hafter : part.breakAfter with
        | false => exact ⟨Prod.ext rfl (check_eq_ok.mpr hd), rfl, rfl⟩
        | true => exact ⟨rfl, rfl, rfl⟩

theorem drawSections_eq {s : Session D} (hs : s.canvas.error = none) (parts : List Section) :
    runStages s.context (bodyStages (!s.started) parts) s.canvas =
      ((drawSections parts s).1.canvas, (drawSections parts s).2) := by
  induction parts generalizing s with
  | nil => rfl
  | cons part parts ih =>
      obtain ⟨heq, hcontext, hstarted⟩ := drawSection_eq hs part
      rcases hpart : s.drawSection part with ⟨s', failure | _⟩
      · rw [hpart] at heq
        rw [bodyStages, runStages_append, heq, drawSections, hpart]
      · rw [hpart] at heq hcontext hstarted
        have hs' : s'.canvas.error = none := (runStages_ok heq).2 hs
        have hrest := ih hs'
        dsimp only at hcontext hstarted
        rw [hcontext, hstarted] at hrest
        rw [bodyStages, runStages_append, heq, drawSections, hpart]
        exact hrest

/-- A report is drawn stage by stage. -/
theorem draw_eq {files : Files} {r : Report} {ctx : Context} {c : Canvas Float D}
    (hc : (start files r ctx c).canvas.error = none) :
    draw files r ctx c = runStages ctx (stages r) (start files r ctx c).canvas := by
  have hbody := drawSections_eq hc r.sections
  rw [draw, stages, runStages_append]
  change runStages ctx (bodyStages true r.sections) _ = _ at hbody
  rw [hbody]
  rcases drawSections r.sections (start files r ctx c) with ⟨s, failure | _⟩
  · rfl
  · change (s.canvas.close, check .document s.canvas.close) =
      match check .document s.canvas.close with
      | .error failure => (s.canvas.close, .error failure)
      | .ok () => (s.canvas.close, .ok ())
    cases check .document s.canvas.close <;> rfl

/-- The canvas of a report after some of its stages. -/
def drawn (files : Files) (r : Report) (ctx : Context) (device : D) (setup : PageSetup Float)
    (stages : List Stage) : Canvas Float D :=
  (start files r ctx (.new device setup)).canvas.run (stageSteps ctx stages)

section

variable {files : Files} {r : Report} {ctx : Context} {device : D} {setup : PageSetup Float}

theorem drawn_append (before after : List Stage) :
    drawn files r ctx device setup (before ++ after) =
      (drawn files r ctx device setup before).run (stageSteps ctx after) := by
  rw [drawn, stageSteps_append]
  exact List.foldl_append

/-- A report that is drawn has no error after any of its stages, and goes on with the others. -/
theorem draw_stages {c : Canvas Float D} (h : draw files r ctx (.new device setup) = (c, .ok ()))
    {before after : List Stage} (hstages : stages r = before ++ after) :
    (drawn files r ctx device setup before).error = none ∧
      c = (drawn files r ctx device setup before).run (stageSteps ctx after) := by
  have hstart := (start_unused files r ctx device setup).1.error
  rw [draw_eq hstart, hstages, runStages_append] at h
  rcases hbefore : runStages ctx before (start files r ctx (.new device setup)).canvas with
    ⟨d, failure | _⟩
  · rw [hbefore] at h
    cases h
  · rw [hbefore] at h
    obtain ⟨rfl, herror⟩ := runStages_ok hbefore
    exact ⟨herror hstart, (runStages_ok h).1⟩

end

end Session

end PagedReport
