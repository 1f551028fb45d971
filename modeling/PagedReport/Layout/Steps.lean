import PagedReport.Data.NumberFormat
import PagedReport.Layout.Context

/-!
# Elements as steps

What an element draws depends on the context alone, so every element is a list of steps for a
canvas.  A reference that finds nothing to draw is reported and what does not depend on it is drawn.
-/

namespace PagedReport

namespace Layout

open Report

/-- The height of the rows of a table. -/
def tableRow : Float := 7

/-- The height of the rows of lists. -/
def listRow : Float := 6

def usualBullet : String := "\u2022"

def bulletWidth : Float := 10

def usualIndent : Float := 10

def usualKeyWidth : Float := 50

/-- A length, or the usual one in place of zero. -/
def orUsual (length usual : Float) : Float := if length == 0 then usual else length

/-- Free space below an element. -/
def space (height : Float) : List (Step Float) :=
  if 0 < height then [.lineFeed (some height)] else []

/-! ## Text and images -/

/-- A text is wrapped if it has a width or asks for it; else it is one line. -/
def text (ctx : Context) (t : Text) (spacing : Float) : List (Step Float) :=
  let cell : Cell Float :=
    { width := if 0 < t.width then t.width else 0
      height := ctx.styles.lineHeight t.style
      text := ctx.resolve t.content
      align := (t.align <|> ctx.styles.align t.style).getD .left }
  let draw : Step Float :=
    if 0 < t.width || t.wrap then .multiCell cell else .cell { cell with advance := .nextLine }
  ctx.styles.use t.style ++ (t.y.map .setY).toList ++ (t.x.map .setX).toList ++
    draw :: space spacing

def image (ctx : Context) (i : Report.Image) (spacing : Float) : List (Step Float) :=
  [.flowImage (ctx.imagePath (ctx.resolve i.path)) i.align i.x i.y i.width i.height spacing]

/-! ## Shapes -/

def rule (ctx : Context) (r : Rule) : List (Step Float) :=
  let page := ctx.setup.pageSize
  (r.color.map .setDrawColor).toList ++
    (if 0 < r.width then [.setLineWidth r.width] else []) ++
    [.line (fromEdge r.x₁ page.width) (fromEdge r.y₁ page.height)
      (fromEdge r.x₂ page.width) (fromEdge r.y₂ page.height)]

/-- A box with neither colour is drawn as an outline. -/
def box (ctx : Context) (b : Box) (spacing : Float) : List (Step Float) :=
  let page := ctx.setup.pageSize
  let x := fromEdge b.x page.width
  let y := fromEdge b.y page.height
  let painting := Painting.ofFlags b.fillColor.isSome b.borderColor.isSome
  let radius := if 0 < b.radius then b.radius else 0
  (b.fillColor.map .setFillColor).toList ++ (b.borderColor.map .setDrawColor).toList ++
    (if 0 < b.borderWidth then [.setLineWidth b.borderWidth] else []) ++
    .rect x y b.width b.height radius painting ::
    (if 0 < spacing then [.setY (y + b.height + spacing)] else [])

/-! ## Tables -/

def tableHeader (ctx : Context) (t : Table) : List (Step Float) :=
  ctx.styles.use t.headerStyle ++
    t.columns.map (fun c ↦ .cell
      { width := c.width, height := tableRow, text := c.header, border := .all, align := .center,
        fill := t.headerStyle.isSome }) ++
    [.lineFeed none]

/-- The cell of a column in the row of an object. -/
def tableCell (border : Border) (fill : Bool) (record : Members) (c : Column) : Step Float :=
  .cell
    { width := c.width
      height := tableRow
      text := (NumberFormat.ofName c.format).formatValue ((record.get? c.field).getD .null)
      border
      align := c.align.getD .left
      fill }

/-- A row for an object; any other value only puts the style into effect.  Rows are counted from
zero, and those with even numbers are coloured. -/
def tableRowOf (ctx : Context) (t : Table) (index : Nat) (row : Value) : List (Step Float) :=
  ctx.styles.use t.cellStyle ++
    match row with
    | .object record =>
      let color := if index % 2 = 0 then t.alternateColor else none
      let border := if t.border then Border.all else Border.none
      (color.map .setFillColor).toList ++
        t.columns.map (tableCell border color.isSome record) ++ [.lineFeed none]
    | _ => []

def table (ctx : Context) (t : Table) (spacing : Float) : List (Step Float) :=
  tableHeader ctx t ++
    match ctx.source? t.source with
    | some (.array rows) =>
      (rows.mapIdx (tableRowOf ctx t)).flatten ++ space spacing
    | some other => [.warn (.tableSourceNotList t.source other.kindName)]
    | none => [.warn (.tableSourceMissing t.source)]

/-! ## Lists -/

/-- The row of an item, if the item is a string. -/
def listItem (left : Float) (bullet : String) : Value → List (Step Float)
  | .string item =>
    [ .setX left,
      .cell { width := bulletWidth, height := listRow, text := bullet },
      .cell { width := 0, height := listRow, text := item, advance := .nextLine } ]
  | _ => []

def bulletList (ctx : Context) (l : BulletList) (spacing : Float) : List (Step Float) :=
  ctx.styles.use l.style ++
    match ctx.source? l.source with
    | some (.array items) =>
      let left := ctx.setup.margins.left + orUsual l.indent usualIndent
      items.flatMap (listItem left (l.bullet.getD usualBullet)) ++ space spacing
    | _ => [.warn (.listSourceMissing l.source)]

def entry (ctx : Context) (l : KeyValues) (e : Entry) : List (Step Float) :=
  [ .cell { width := orUsual l.keyWidth usualKeyWidth, height := listRow, text := e.key ++ ":" },
    .cell
      { width := l.valueWidth
        height := listRow
        text := ctx.resolve e.value
        align := l.valueAlign.getD .left
        advance := .nextLine } ]

def keyValues (ctx : Context) (l : KeyValues) (spacing : Float) : List (Step Float) :=
  ctx.styles.use l.style ++ l.entries.flatMap (entry ctx l) ++ space spacing

/-! ## All elements -/

def bandElement (ctx : Context) (e : Element BandContent) : List (Step Float) :=
  match e.content with
  | .text t => text ctx t e.spacing
  | .image i => image ctx i e.spacing
  | .rule r => rule ctx r

def element (ctx : Context) (e : Element Content) : List (Step Float) :=
  match e.content with
  | .band c => bandElement ctx { e with content := c }
  | .table t => table ctx t e.spacing
  | .list l => bulletList ctx l e.spacing
  | .keyValues l => keyValues ctx l e.spacing
  | .box b => box ctx b e.spacing
  | .pageBreak => [.addPage]

/-! ## Bands -/

/-- A header starts at the top margin. -/
def header (ctx : Context) (b : Band) : List (Step Float) := b.elements.flatMap (bandElement ctx)

/-- A footer starts its height above the lower edge. -/
def footer (ctx : Context) (b : Band) : List (Step Float) :=
  .setY (-b.height) :: b.elements.flatMap (bandElement ctx)

/-- A band that is to be drawn. -/
def shown (b : Option Band) : Option Band := b.filter (·.enabled)

/-- The bands of a report, if any is to be drawn. -/
def bands (ctx : Context) (r : Report) : List (Step Float) :=
  let top := shown r.header
  let bottom := shown r.footer
  if top.isNone && bottom.isNone then []
  else [.decorate ((top.map (header ctx)).getD []) ((bottom.map (footer ctx)).getD [])]

end Layout

end PagedReport
