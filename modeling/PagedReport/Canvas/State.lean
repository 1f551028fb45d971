import PagedReport.Font.Standard
import PagedReport.Warning

/-!
# The state of a canvas

A canvas draws on a device through a cursor.  It keeps margins, a graphics state and the first error
that occurred, starts pages by itself where a cell would cross the bottom margin, and draws a header
and a footer on every page by running steps of a decorator.  It also keeps, oldest first, all calls
the device received, each with the part of the page on whose behalf it was made.
-/

namespace PagedReport

/-- What stays in effect until it is changed and is the same before and after a page starts. -/
structure Graphics (K : Type) where
  font : FontChoice K
  textColor : Color
  fillColor : Color
  drawColor : Color
  /-- In document units. -/
  lineWidth : K

/-- One operation on a canvas.  Lengths are in document units; a negative coordinate of the cursor
counts back from the far edge. -/
inductive Step (K : Type) where
  | setMargins (left top right : K)
  | setAutoBreak (enabled : Bool) (margin : K)
  | setInfo (info : DocumentInfo)
  /-- Steps to draw at the start and at the end of every page from now on. -/
  | decorate (header footer : List (Step K))
  | undecorate
  | registerFont (family style : String) (data : ByteArray)
  /-- A size of zero keeps the size. -/
  | setFont (family style : String) (size : K)
  | setTextColor (c : Color)
  | setFillColor (c : Color)
  | setDrawColor (c : Color)
  | setLineWidth (w : K)
  | setX (x : K)
  /-- Also goes to the left margin. -/
  | setY (y : K)
  /-- To the left margin of the next line, by default one cell further down. -/
  | lineFeed (height : Option K)
  | addPage
  | cell (c : Cell K)
  /-- Wraps the text of a cell into rows of its height. -/
  | multiCell (c : Cell K)
  | line (x₁ y₁ x₂ y₂ : K)
  | rect (x y width height radius : K) (painting : Painting)
  /-- A zero width or height follows from the other, or both from the image at 96 dots per inch. -/
  | image (path : String) (x y width height : K)
  | imageExtent (path : String) (width height : K)
  /-- An image in the flow of text: aligned between the margins if so asked, at the height of the
  cursor if `y` is zero, with the cursor going below it. -/
  | flowImage (path : String) (align : Option Align) (x y width height spacing : K)
  | warn (w : Warning)
  | close

/-- What is drawn at the start and at the end of every page. -/
structure Decorator (K : Type) where
  header : List (Step K)
  footer : List (Step K)

structure Canvas (K D : Type) where
  device : D
  /-- Points in one document unit. -/
  scale : K
  pageSize : Size K
  margins : Margins K
  /-- Between the side of a cell and its text. -/
  cellMargin : K
  autoBreak : Bool
  /-- A cell that would reach below this height starts a page. -/
  trigger : K
  x : K
  y : K
  /-- The height of the last cell. -/
  lastHeight : K
  graphics : Graphics K
  pageCount : Nat
  decorator : Option (Decorator K)
  /-- What is being drawn. -/
  origin : Origin
  info : DocumentInfo
  error : Option CanvasError
  closed : Bool
  history : Array (Origin × Call K)
  warnings : Array Warning

namespace Canvas

variable {K D : Type} [Scalar K]

/-- An empty canvas: margins of one centimeter, pages ending two centimeters above the edge. -/
def new (device : D) (setup : PageSetup K) : Canvas K D :=
  let k : K := setup.unit.points
  let size := setup.pageSize
  let margin := 28.35 / k
  { device
    scale := k
    pageSize := size
    margins := ⟨margin, margin, 2 * margin, margin⟩
    cellMargin := margin / 10
    autoBreak := true
    trigger := size.height - 2 * margin
    x := margin
    y := margin
    lastHeight := 0
    graphics :=
      { font := default
        textColor := .black
        fillColor := .black
        drawColor := .black
        lineWidth := 0.567 / k }
    pageCount := 0
    decorator := none
    origin := .body
    info := {}
    error := none
    closed := false
    history := #[]
    warnings := #[] }

/-- Keeps an error unless there is one already. -/
def fail (e : CanvasError) (c : Canvas K D) : Canvas K D :=
  match c.error with
  | some _ => c
  | none => { c with error := some e }

def warn (w : Warning) (c : Canvas K D) : Canvas K D := { c with warnings := c.warnings.push w }

/-- Notes a call on behalf of what is being drawn. -/
def note (call : Call K) (c : Canvas K D) : Canvas K D :=
  { c with history := c.history.push (c.origin, call) }

/-! ## The cursor -/

def setMargins (left top right : K) (c : Canvas K D) : Canvas K D :=
  { c with margins := { c.margins with left, top, right } }

def setAutoBreak (enabled : Bool) (margin : K) (c : Canvas K D) : Canvas K D :=
  { c with
    autoBreak := enabled
    margins := { c.margins with bottom := margin }
    trigger := c.pageSize.height - margin }

def setX (x : K) (c : Canvas K D) : Canvas K D :=
  { c with x := if 0 ≤ x then x else c.pageSize.width + x }

def setY (y : K) (c : Canvas K D) : Canvas K D :=
  { c with x := c.margins.left, y := if 0 ≤ y then y else c.pageSize.height + y }

def lineFeed (height : Option K) (c : Canvas K D) : Canvas K D :=
  { c with x := c.margins.left, y := c.y + height.getD c.lastHeight }

/-- The cursor at the top left corner between the margins. -/
def home (c : Canvas K D) : Canvas K D := { c with x := c.margins.left, y := c.margins.top }

/-! ## The graphics state -/

def setTextColor (color : Color) (c : Canvas K D) : Canvas K D :=
  { c with graphics := { c.graphics with textColor := color } }

def setFillColor (color : Color) (c : Canvas K D) : Canvas K D :=
  { c with graphics := { c.graphics with fillColor := color } }

def setDrawColor (color : Color) (c : Canvas K D) : Canvas K D :=
  { c with graphics := { c.graphics with drawColor := color } }

def setLineWidth (w : K) (c : Canvas K D) : Canvas K D :=
  { c with graphics := { c.graphics with lineWidth := w } }

/-- What a shape is painted with now. -/
def paint (c : Canvas K D) : Paint K :=
  ⟨c.graphics.fillColor, c.graphics.drawColor, c.graphics.lineWidth * c.scale⟩

/-- A rectangle in points. -/
def inPoints (c : Canvas K D) (x y width height : K) : Rect K :=
  ⟨x * c.scale, y * c.scale, width * c.scale, height * c.scale⟩

/-! ## Fonts -/

section

variable {Output : Type} [Device K D Output]

def registerFont (family style : String) (data : ByteArray) (c : Canvas K D) :
    Except CanvasError (Canvas K D) :=
  (Device.registerFont (.ofText family style) data c.device).map fun d ↦ { c with device := d }

def hasFont (c : Canvas K D) (key : FontKey) : Bool :=
  (StandardFont.ofKey? key).isSome || Device.hasFont c.device key

/-- The font for a request: as asked, or of the regular style, or Helvetica. -/
def chooseFont (c : Canvas K D) (family style : String) : FontKey × Option Warning :=
  let asked := FontKey.ofText family style
  let regular := FontKey.ofText asked.family ""
  if c.hasFont asked then (asked, none)
  else if c.hasFont regular then (regular, some (.missingFontStyle family asked.style))
  else (⟨"helvetica", asked.style⟩, some (.missingFont family))

/-- A style with the letter `U` underlines. -/
def setFont (family style : String) (size : K) (c : Canvas K D) : Canvas K D :=
  let (key, warning) := c.chooseFont family style
  let c :=
    match warning with
    | some w => c.warn w
    | none => c
  let font : FontChoice K :=
    { key
      size := if 0 < size then size else c.graphics.font.size
      underline := FontStyle.mentions 'U' style }
  { c with graphics := { c.graphics with font } }

/-- The width of a text in thousandths of an em, as layout sees it. -/
def fontWidth (c : Canvas K D) (key : FontKey) (text : String) : K :=
  match StandardFont.ofKey? key with
  | some f => Scalar.whole (f.textWidth text)
  | none => Device.textWidth c.device key text

/-- The width of a text in the font in effect, in document units. -/
def stringWidth (c : Canvas K D) (text : String) : K :=
  c.fontWidth c.graphics.font.key text * c.graphics.font.size / 1000 / c.scale

end

end Canvas

end PagedReport
