import PagedReport.Canvas.Run
import PagedReport.Layout.Steps

/-!
# Drawing a report

A session sets a canvas up for a report, draws sections on it one after another and closes it.
After every element it looks whether an error has occurred, so an error is known by the element it
is from.
-/

namespace PagedReport

/-- Where drawing a report failed. -/
inductive GenerationError where
  | element (sectionName : String) (index : Nat) (tag : String) (cause : CanvasError)
  /-- While a page was started for a section. -/
  | page (sectionName : String) (cause : CanvasError)
  /-- While the document was ended. -/
  | document (cause : CanvasError)
deriving DecidableEq, Repr

namespace GenerationError

def message : GenerationError → String
  | element sectionName index tag cause =>
    s!"Failed to render {tag} #{index} in section '{sectionName}': {cause.message}"
  | page sectionName cause => s!"Failed to render section '{sectionName}': {cause.message}"
  | document cause => s!"PDF generation error: {cause.message}"

/-- What went wrong on the canvas. -/
def cause : GenerationError → CanvasError
  | element _ _ _ cause => cause
  | page _ cause => cause
  | document cause => cause

end GenerationError

/-- A report being drawn. -/
structure Session (D : Type) where
  canvas : Canvas Float D
  context : Context
  /-- A section has started the first page. -/
  started : Bool := false

namespace Session

variable {D Output : Type} [Device Float D Output]

/-! ## Setting up -/

/-- Takes a font file into use.  A font that cannot be used is reported and missing. -/
def registerFont (files : Files) (ctx : Context) (c : Canvas Float D) (f : Report.FontFile) :
    Canvas Float D :=
  let path := ctx.fontPath f.file
  match files path with
  | .error e => c.warn (.unreadableFont f.name path e)
  | .ok data =>
    match c.registerFont f.family f.style data with
    | .error e => c.warn (.rejectedFont f.name e)
    | .ok c => c

/-- The name that documents are marked with. -/
def creator : String := "quire"

/-- The properties that the metadata of a report become. -/
def infoOf (m : Option Report.Metadata) : DocumentInfo :=
  match m with
  | some m => { title := m.name, author := m.author, subject := m.description, creator }
  | none => { creator }

/-- The steps that set a canvas up, fonts apart. -/
def setupSteps (r : Report) (ctx : Context) : List (Step Float) × List (Step Float) :=
  let m := r.setup.margins
  ([.setMargins m.left m.top m.right, .setAutoBreak true m.bottom],
    Layout.bands ctx r ++ [.setInfo (infoOf r.metadata)])

/-- A canvas set up for a report. -/
def start (files : Files) (r : Report) (ctx : Context) (c : Canvas Float D) : Session D :=
  let (before, after) := setupSteps r ctx
  let c := r.fonts.foldl (registerFont files ctx) (c.run before)
  { canvas := c.run after, context := ctx }

/-! ## Sections -/

/-- Fails with the error of a canvas, if it has one. -/
def check (wrap : CanvasError → GenerationError) (c : Canvas Float D) :
    Except GenerationError Unit :=
  match c.error with
  | some e => .error (wrap e)
  | none => .ok ()

/-- Draws elements, counted from `index`, up to the first that fails. -/
def drawElements (ctx : Context) (sectionName : String) :
    Nat → List (Report.Element Report.Content) → Canvas Float D →
      Canvas Float D × Except GenerationError Unit
  | _, [], c => (c, .ok ())
  | index, e :: rest, c =>
    let c := c.run (Layout.element ctx e)
    match check (.element sectionName index e.content.tag) c with
    | .error failure => (c, .error failure)
    | .ok () => drawElements ctx sectionName (index + 1) rest c

/-- Whether a section starts with a new page: the first one always does. -/
def startsPage (s : Session D) (part : Report.Section) : Bool := !s.started || part.breakBefore

/-- Draws a section: its page break before, its elements, its page break after. -/
def drawSection (part : Report.Section) (s : Session D) : Session D × Except GenerationError Unit :=
  let c := if s.startsPage part then s.canvas.addPage else s.canvas
  let s := { s with canvas := c, started := true }
  match check (.page part.name) c with
  | .error failure => (s, .error failure)
  | .ok () =>
    match drawElements s.context part.name 0 part.elements c with
    | (c, .error failure) => ({ s with canvas := c }, .error failure)
    | (c, .ok ()) =>
      if part.breakAfter then
        let c := c.addPage
        ({ s with canvas := c }, check (.page part.name) c)
      else ({ s with canvas := c }, .ok ())

/-- Draws sections up to the first that fails. -/
def drawSections : List Report.Section → Session D → Session D × Except GenerationError Unit
  | [], s => (s, .ok ())
  | part :: rest, s =>
    match s.drawSection part with
    | (s, .error failure) => (s, .error failure)
    | (s, .ok ()) => drawSections rest s

/-- Closes the document, which draws the last footer. -/
def finish (s : Session D) : Canvas Float D × Except GenerationError Unit :=
  let c := s.canvas.close
  (c, check .document c)

/-- Draws a whole report. -/
def draw (files : Files) (r : Report) (ctx : Context) (c : Canvas Float D) :
    Canvas Float D × Except GenerationError Unit :=
  match drawSections r.sections (start files r ctx c) with
  | (s, .error failure) => (s.canvas, .error failure)
  | (s, .ok ()) => s.finish

end Session

end PagedReport
