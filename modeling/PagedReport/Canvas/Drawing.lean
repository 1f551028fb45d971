import PagedReport.Canvas.State
import PagedReport.Canvas.Wrap

/-!
# Drawing

How cells, lines, shapes and images reach the device.  Some of these start a page first, and
starting a page draws a footer and a header; `hook` is what does that.
-/

namespace PagedReport

namespace Canvas

variable {K D Output : Type} [Scalar K] [Device K D Output]

/-- Puts a mark down. -/
def put (m : Mark K) (c : Canvas K D) : Canvas K D :=
  { c with device := Device.mark m c.device }.note (.mark m)

/-- The start of a page for the device. -/
def putPage (c : Canvas K D) : Canvas K D :=
  let size : Size K := ⟨c.pageSize.width * c.scale, c.pageSize.height * c.scale⟩
  { c with
    device := Device.beginPage size c.device
    pageCount := c.pageCount + 1 }.note (.page size)

section Pages

variable (hook : Origin → Canvas K D → Canvas K D)

/-- Starts a page: the footer of the page before it, then the header of the new one.  The graphics
state is what it was, and the cursor is at home. -/
def addPageWith (c : Canvas K D) : Canvas K D :=
  if c.error.isSome then c
  else if c.closed then c.fail .closed
  else
    let saved := c.graphics
    let c := if 0 < c.pageCount then hook .footer c else c
    let c := { c.putPage.home with graphics := saved }
    { hook .header c with graphics := saved }.home

/-- Ends the last page with its footer.  There is a last page even if nothing was drawn. -/
def closeWith (c : Canvas K D) : Canvas K D :=
  if c.closed then c
  else
    let c := if c.pageCount = 0 then addPageWith hook c else c
    { hook .footer c with closed := true }

/-- Makes sure that drawing is possible, and says whether it is. -/
def prepareWith (c : Canvas K D) : Canvas K D × Bool :=
  if c.error.isSome then (c, false)
  else if c.closed then (c.fail .closed, false)
  else
    let c := if c.pageCount = 0 then addPageWith hook c else c
    (c, c.error.isNone)

/-! ## Text -/

/-- Text at a point of the page, with a bar under it if the font is underlined. -/
def drawText (x baseline : K) (text : String) (width : K) (c : Canvas K D) : Canvas K D :=
  let font := c.graphics.font
  let color := c.graphics.textColor
  let c := c.put (.text x baseline text font.key font.size color)
  if font.underline then
    let bar : Rect K := ⟨x, baseline + 0.1 * font.size, width, 0.05 * font.size⟩
    c.put (.rect bar 0 .fill { c.paint with fill := color })
  else c

/-- Words from `cursor` on, `gap` apart. -/
def drawWords (baseline gap : K) : K → List (String × K) → Canvas K D → Canvas K D
  | _, [], c => c
  | cursor, (word, width) :: rest, c =>
    drawWords baseline gap (cursor + (width + gap)) rest
      (c.drawText (cursor * c.scale) baseline word (width * c.scale))

/-- Words spread over the inside of a cell, at least a space apart. -/
def drawJustified (text : String) (x width baseline : K) (c : Canvas K D) : Canvas K D :=
  let words := (Wrap.words text.toList).map String.ofList
  let widths := words.map c.stringWidth
  let gaps : K := Scalar.whole (max (words.length - 1) 1)
  let free := width - 2 * c.cellMargin - widths.foldl (· + ·) 0
  let gap := Scalar.larger (free / gaps) (c.stringWidth " ")
  drawWords baseline gap (x + c.cellMargin) (words.zip widths) c

/-! ## Cells -/

def drawBorder (b : Border) (x y w h : K) (c : Canvas K D) : Canvas K D :=
  let k := c.scale
  let paint := c.paint
  let (left, top, right, bottom) := (x * k, y * k, (x + w) * k, (y + h) * k)
  let side (shown : Bool) (x₁ y₁ x₂ y₂ : K) (c : Canvas K D) : Canvas K D :=
    if shown then c.put (.line x₁ y₁ x₂ y₂ paint) else c
  c |> side b.left left top left bottom
    |> side b.top left top right top
    |> side b.right right top right bottom
    |> side b.bottom left bottom right bottom

/-- The box of a cell: filled, framed, or with lines on some sides. -/
def drawBox (cell : Cell K) (width : K) (c : Canvas K D) : Canvas K D :=
  let (x, y, h) := (c.x, c.y, cell.height)
  let framed := cell.border = .all
  let c :=
    if cell.fill || framed then
      c.put (.rect (c.inPoints x y width h) 0 (.ofFlags cell.fill framed) c.paint)
    else c
  if cell.border = .none || framed then c else c.drawBorder cell.border x y width h

/-- The text of a cell, its baseline a little below the middle. -/
def drawContent (cell : Cell K) (justify : Bool) (width : K) (c : Canvas K D) : Canvas K D :=
  if cell.text.isEmpty then c
  else
    let baseline := (c.y + 0.5 * cell.height) * c.scale + 0.3 * c.graphics.font.size
    if justify then c.drawJustified cell.text c.x width baseline
    else
      let textWidth := c.stringWidth cell.text
      let dx :=
        match cell.align with
        | .right => width - c.cellMargin - textWidth
        | .center => (width - textWidth) / 2
        | .left | .justify => c.cellMargin
      c.drawText ((c.x + dx) * c.scale) baseline cell.text (textWidth * c.scale)

def advance (cell : Cell K) (width : K) (c : Canvas K D) : Canvas K D :=
  let h := cell.height
  let c := { c with lastHeight := h }
  match cell.advance with
  | .right => { c with x := c.x + width }
  | .nextLine => { c with y := c.y + h, x := c.margins.left }
  | .below => { c with y := c.y + h }

/-- The width of a cell here. -/
def widthOf (cell : Cell K) (c : Canvas K D) : K :=
  if cell.width == 0 then c.pageSize.width - c.margins.right - c.x else cell.width

/-- Whether a cell of this height would reach into the bottom margin.  Bands may. -/
def breaksPage (height : K) (c : Canvas K D) : Bool :=
  c.autoBreak && c.origin = .body && c.trigger < c.y + height

/-- A cell at the cursor, on a new page if it does not fit. -/
def drawCellWith (cell : Cell K) (justify : Bool) (c : Canvas K D) : Canvas K D :=
  let c := if c.breaksPage cell.height then { addPageWith hook c with x := c.x } else c
  let width := c.widthOf cell
  c.drawBox cell width |>.drawContent cell justify width |>.advance cell width

def cellWith (cell : Cell K) (c : Canvas K D) : Canvas K D :=
  let (c, possible) := prepareWith hook c
  if possible then drawCellWith hook cell false c else c

/-- The rows of a wrapped cell, each starting at `x`. -/
def drawRows (cell : Cell K) (width x : K) (first : Bool) :
    List WrappedLine → Canvas K D → Canvas K D
  | [], c => c
  | line :: rest, c =>
    let row : Cell K :=
      { cell with
        width
        text := String.ofList line.text
        border := cell.border.ofLine first rest.isEmpty
        advance := .below }
    let justify := cell.align = .justify && !line.hardBreak
    drawRows cell width x false rest (drawCellWith hook row justify { c with x })

/-- A wrapped cell; the cursor ends at the left margin below it. -/
def multiCellWith (cell : Cell K) (c : Canvas K D) : Canvas K D :=
  let (c, possible) := prepareWith hook c
  if possible then
    let width := c.widthOf cell
    let lines :=
      Wrap.lines (width - 2 * c.cellMargin) (fun cs ↦ c.stringWidth (String.ofList cs))
        cell.text.toList
    let c := drawRows hook cell width c.x true lines c
    { c with x := c.margins.left }
  else c

/-! ## Shapes -/

def lineWith (x₁ y₁ x₂ y₂ : K) (c : Canvas K D) : Canvas K D :=
  let (c, possible) := prepareWith hook c
  if possible then
    let k := c.scale
    c.put (.line (x₁ * k) (y₁ * k) (x₂ * k) (y₂ * k) c.paint)
  else c

def rectWith (x y width height radius : K) (painting : Painting) (c : Canvas K D) : Canvas K D :=
  let (c, possible) := prepareWith hook c
  if possible then
    c.put (.rect (c.inPoints x y width height) (Scalar.larger radius 0 * c.scale) painting c.paint)
  else c

/-! ## Images -/

/-- The extent an image of so many pixels is drawn at. -/
def extentOf (pixels : Nat × Nat) (width height : K) (c : Canvas K D) : K × K :=
  let across : K := Scalar.whole pixels.1
  let down : K := Scalar.whole pixels.2
  if 0 < width then
    if 0 < height then (width, height) else (width, width * down / across)
  else if 0 < height then (height * across / down, height)
  else
    let w := across * 72 / 96 / c.scale
    (w, w * down / across)

/-- The extent an image would be drawn at. -/
def imageExtentWith (path : String) (width height : K) (c : Canvas K D) :
    Canvas K D × Option (K × K) :=
  let (c, possible) := prepareWith hook c
  if possible then
    match Device.imageSize path c.device with
    | .error e => (c.fail e, none)
    | .ok (pixels, device) =>
      let c := { c with device }
      if pixels.1 = 0 ∨ pixels.2 = 0 then (c.fail (.image path .noPixels), none)
      else (c, some (c.extentOf pixels width height))
  else (c, none)

/-- Draws an image and says how large it is. -/
def imageWith (path : String) (x y width height : K) (c : Canvas K D) :
    Canvas K D × Option (K × K) :=
  match imageExtentWith hook path width height c with
  | (c, none) => (c, none)
  | (c, some (w, h)) =>
    let place := c.inPoints x y w h
    match Device.image path place c.device with
    | .error e => (c.fail e, none)
    | .ok device => ({ c with device }.note (.image path place), some (w, h))

/-- Where an image of the flow begins across the page. -/
def flowX (align : Option Align) (x width : K) (c : Canvas K D) : K :=
  match align with
  | some .center =>
    c.margins.left + (c.pageSize.width - c.margins.left - c.margins.right - width) / 2
  | some .right => c.pageSize.width - c.margins.right - width
  | _ => x

def flowImageWith (path : String) (align : Option Align) (x y width height spacing : K)
    (c : Canvas K D) : Canvas K D :=
  let aligned := align = some .center || align = some .right
  let (c, extent) :=
    if aligned then imageExtentWith hook path width height c else (c, some (width, height))
  match extent with
  | none => c
  | some (w, _) =>
    let x := c.flowX align x w
    let y := if y == 0 then c.y else y
    match imageWith hook path x y width height c with
    | (c, none) => c
    | (c, some (_, h)) =>
      let c := if 0 < h then c.setY (y + h) else c
      if 0 < spacing then c.lineFeed (some spacing) else c

end Pages

end Canvas

end PagedReport
