import PagedReport.Generator.Loading
import PagedReport.Job
import PagedReport.Pdf.Draft

/-!
# Generating documents

The loaded report is drawn on a canvas of any device.  A document for a path is drawn completely
before the file is opened, so a file is there only if drawing succeeded.
-/

namespace PagedReport

namespace Generator

/-- What the report is drawn with. -/
def context (g : Generator) (r : Report) : Context :=
  { setup := r.setup
    styles := ⟨r.styles⟩
    data := .object g.data
    fontDirectory := g.options.fontDirectory
    imageDirectory := g.options.imageDirectory }

section

variable {D Output : Type} [Device Float D Output]

/-- Draws the loaded report on a canvas and closes it. -/
def render (files : Files) (c : Canvas Float D) (g : Generator) :
    Canvas Float D × Except ReportError Unit :=
  match g.report with
  | none => (c, .error .noTemplate)
  | some r =>
    match Session.draw files r (g.context r) c with
    | (c, .error e) => (c, .error (.generation e))
    | (c, .ok ()) => (c, .ok ())

end

/-- The page setup of the loaded report. -/
def setup (g : Generator) : PageSetup Float := (g.report.map (·.setup)).getD default

/-- An empty canvas for documents. -/
def blank (files : Files) (g : Generator) : Canvas Float Pdf.Draft :=
  .new { files, compress := g.options.compress } g.setup

/-- The document of the loaded report, as a sink takes it. -/
def document (files : Files) (sink : Sink) (g : Generator) : Outcome Pdf.Document :=
  match g.render files (g.blank files) with
  | (c, .error e) => (.error e, c.warnings.toList)
  | (c, .ok ()) =>
    match c.write sink with
    | (c, .error e) => (.error (.generation (.document e)), c.warnings.toList)
    | (c, .ok d) => (.ok d, c.warnings.toList)

/-! ## Files -/

/-- The images that elements of a band draw. -/
def bandImages (es : List (Report.Element Report.BandContent)) : List String :=
  es.filterMap fun e ↦
    match e.content with
    | .image i => some i.path
    | _ => none

/-- The images that elements of a section draw. -/
def sectionImages (es : List (Report.Element Report.Content)) : List String :=
  es.filterMap fun e ↦
    match e.content with
    | .band (.image i) => some i.path
    | _ => none

/-- The images of a band that is drawn. -/
def shownImages (b : Option Report.Band) : List String :=
  ((Layout.shown b).map fun b ↦ bandImages b.elements).getD []

/-- The paths that drawing a report reads. -/
def paths (g : Generator) (r : Report) : List String :=
  let ctx := g.context r
  let images :=
    r.sections.flatMap (sectionImages ·.elements) ++ shownImages r.header ++ shownImages r.footer
  r.fonts.map (fun f ↦ ctx.fontPath f.file) ++ images.map fun i ↦ ctx.imagePath (ctx.resolve i)

/-- Writes the document of the loaded report to a path. -/
def generate (path : String) (g : Generator) : Job (Outcome Unit) := do
  let files ← Job.fetch ((g.report.map g.paths).getD [])
  match g.document files .sound with
  | (.error e, warnings) => return (.error e, warnings)
  | (.ok d, warnings) =>
    match ← Job.put path d with
    | .error e => return (.error (.file .output path e), warnings)
    | .ok () => return (.ok (), warnings)

end Generator

end PagedReport
