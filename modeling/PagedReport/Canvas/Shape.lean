import PagedReport.Color
import PagedReport.Font.Key
import PagedReport.Page.Geometry

/-!
# What is drawn

Cells are in the unit of the document and placed by a cursor.  Marks are in points, counted from the
top left corner of a page, and carry all they are painted with.
-/

namespace PagedReport

/-! ## Cells -/

/-- The sides of a cell that have a line. -/
structure Border where
  left : Bool := false
  top : Bool := false
  right : Bool := false
  bottom : Bool := false
deriving DecidableEq, Repr, Inhabited

namespace Border

def none : Border := {}

def all : Border := ⟨true, true, true, true⟩

/-- The sides that one line of a wrapped cell keeps. -/
def ofLine (b : Border) (first last : Bool) : Border :=
  { b with top := b.top && first, bottom := b.bottom && last }

end Border

/-- Where the cursor goes after a cell. -/
inductive Advance where
  /-- To the right edge of the cell. -/
  | right
  /-- To the left margin of the next line. -/
  | nextLine
  /-- Below the cell, keeping its place across. -/
  | below
deriving DecidableEq, Repr, Inhabited

/-- A box of text.  A width of zero reaches to the right margin. -/
structure Cell (K : Type) where
  width : K
  height : K
  text : String
  border : Border := .none
  advance : Advance := .right
  align : Align := .left
  fill : Bool := false

/-! ## Paint -/

/-- How a closed shape is painted. -/
inductive Painting where
  | stroke
  | fill
  | fillStroke
deriving DecidableEq, Repr, Inhabited

namespace Painting

/-- A shape that is to be neither filled nor stroked is stroked. -/
def ofFlags (fill stroke : Bool) : Painting :=
  match fill, stroke with
  | true, true => .fillStroke
  | true, false => .fill
  | false, _ => .stroke

def fills : Painting → Bool
  | .stroke => false
  | _ => true

def strokes : Painting → Bool
  | .fill => false
  | _ => true

end Painting

structure Rect (K : Type) where
  x : K
  y : K
  width : K
  height : K
deriving Repr

structure Paint (K : Type) where
  fill : Color
  stroke : Color
  /-- In points. -/
  lineWidth : K
deriving Repr

/-! ## Marks -/

inductive Mark (K : Type) where
  /-- Text whose baseline starts at a point. -/
  | text (x baseline : K) (text : String) (font : FontKey) (size : K) (color : Color)
  | line (x₁ y₁ x₂ y₂ : K) (paint : Paint K)
  /-- A rectangle, with round corners if the radius is positive. -/
  | rect (r : Rect K) (radius : K) (painting : Painting) (paint : Paint K)

/-- What a device is asked to put down. -/
inductive Call (K : Type) where
  | page (size : Size K)
  | mark (m : Mark K)
  | image (path : String) (place : Rect K)

/-- On whose behalf something is drawn. -/
inductive Origin where
  | body
  | header
  | footer
deriving DecidableEq, Repr, Inhabited

/-- The properties of a document that are not seen on its pages. -/
structure DocumentInfo where
  title : String := ""
  author : String := ""
  subject : String := ""
  creator : String := ""
deriving DecidableEq, Repr, Inhabited

end PagedReport
