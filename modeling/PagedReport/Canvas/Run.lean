import PagedReport.Canvas.Drawing

/-!
# Running steps

A page starts with the steps of the header and ends with those of the footer.  These steps may set
other bands and start pages of their own, which have headers and footers again.
-/

namespace PagedReport

namespace Canvas

variable {K D Output : Type} [Scalar K] [Device K D Output]

/-- One step; `hook` draws the bands of the pages that it starts. -/
def stepWith (hook : Origin → Canvas K D → Canvas K D) : Step K → Canvas K D → Canvas K D
  | .setMargins left top right, c => c.setMargins left top right
  | .setAutoBreak enabled margin, c => c.setAutoBreak enabled margin
  | .setInfo info, c => { c with info }
  | .decorate header footer, c => { c with decorator := some ⟨header, footer⟩ }
  | .undecorate, c => { c with decorator := none }
  | .registerFont family style data, c =>
    match c.registerFont family style data with
    | .ok c => c
    | .error _ => c
  | .setFont family style size, c => c.setFont family style size
  | .setTextColor color, c => c.setTextColor color
  | .setFillColor color, c => c.setFillColor color
  | .setDrawColor color, c => c.setDrawColor color
  | .setLineWidth w, c => c.setLineWidth w
  | .setX x, c => c.setX x
  | .setY y, c => c.setY y
  | .lineFeed height, c => c.lineFeed height
  | .addPage, c => addPageWith hook c
  | .cell cell, c => cellWith hook cell c
  | .multiCell cell, c => multiCellWith hook cell c
  | .line x₁ y₁ x₂ y₂, c => lineWith hook x₁ y₁ x₂ y₂ c
  | .rect x y width height radius painting, c => rectWith hook x y width height radius painting c
  | .image path x y width height, c => (imageWith hook path x y width height c).1
  | .imageExtent path width height, c => (imageExtentWith hook path width height c).1
  | .flowImage path align x y width height spacing, c =>
    flowImageWith hook path align x y width height spacing c
  | .warn w, c => c.warn w
  | .close, c => closeWith hook c

mutual

/-- How deep bands are set inside of bands by a step. -/
def nesting : Step K → Nat
  | .decorate header footer => max (nestings header) (nestings footer) + 1
  | _ => 0

def nestings : List (Step K) → Nat
  | [] => 0
  | s :: rest => max (nesting s) (nestings rest)

end

/-- The steps of a decorator for one band. -/
def bandSteps (d : Decorator K) : Origin → List (Step K)
  | .body => []
  | .header => d.header
  | .footer => d.footer

/-- Draws a band, in which bands are drawn inside of one another to a depth. -/
def hookAt : Nat → Origin → Canvas K D → Canvas K D
  | 0, _, c => c
  | depth + 1, band, c =>
    match c.decorator with
    | none => c
    | some d =>
      let c := (bandSteps d band).foldl (fun c s ↦ stepWith (hookAt depth) s c)
        { c with origin := band }
      { c with origin := .body }

/-- How deep the bands of a decorator are drawn inside of one another.  A header may end the
document and so draw the footer; only bands that it has set itself can go deeper. -/
def bandDepth (d : Decorator K) : Nat := 2 * (max (nestings d.header) (nestings d.footer) + 1)

/-- Draws the band of a page. -/
def hook (band : Origin) (c : Canvas K D) : Canvas K D :=
  hookAt ((c.decorator.map bandDepth).getD 0) band c

def addPage (c : Canvas K D) : Canvas K D := addPageWith hook c

def close (c : Canvas K D) : Canvas K D := closeWith hook c

def image (path : String) (x y width height : K) (c : Canvas K D) : Canvas K D × Option (K × K) :=
  imageWith hook path x y width height c

def imageExtent (path : String) (width height : K) (c : Canvas K D) :
    Canvas K D × Option (K × K) :=
  imageExtentWith hook path width height c

def step (s : Step K) (c : Canvas K D) : Canvas K D := stepWith hook s c

def run (steps : List (Step K)) (c : Canvas K D) : Canvas K D :=
  steps.foldl (fun c s ↦ c.step s) c

/-- Closes the document and finishes it on its device, unless an error occurred. -/
def write (sink : Sink) (c : Canvas K D) : Canvas K D × Except CanvasError Output :=
  let c := c.close
  match c.error with
  | some e => (c, .error e)
  | none =>
    match Device.finish c.info sink c.device with
    | .error e => (c, .error e)
    | .ok (output, device) => ({ c with device }, .ok output)

end Canvas

end PagedReport
