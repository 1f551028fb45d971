import PagedReport.Color
import PagedReport.Page.Geometry

/-!
# Elements

What a section or a band is made of.  Texts and paths may hold actions in double braces; lengths are
in the unit of the document.
-/

namespace PagedReport

namespace Report

/-- A line of text, or a paragraph if it has a width or is to be wrapped. -/
structure Text where
  content : String
  style : Option String := none
  x : Option Float := none
  y : Option Float := none
  width : Float := 0
  align : Option Align := none
  wrap : Bool := false

/-- A picture.  At `y = 0` it stands at the height of the cursor. -/
structure Image where
  path : String
  x : Float := 0
  y : Float := 0
  width : Float := 0
  height : Float := 0
  align : Option Align := none

structure Column where
  header : String
  /-- The member of a row that is shown. -/
  field : String
  width : Float := 0
  align : Option Align := none
  format : String := ""

/-- A header row, then a row for every object in a list. -/
structure Table where
  source : String
  headerStyle : Option String := none
  cellStyle : Option String := none
  border : Bool := false
  alternateColor : Option Color := none
  columns : List Column := []

/-- A row with a bullet for every string in a list. -/
structure BulletList where
  source : String
  style : Option String := none
  bullet : Option String := none
  indent : Float := 0

structure Entry where
  key : String
  value : String

/-- A row with a key and a value for every entry. -/
structure KeyValues where
  style : Option String := none
  keyWidth : Float := 0
  valueWidth : Float := 0
  valueAlign : Option Align := none
  entries : List Entry := []

/-- A straight line.  Negative coordinates count back from the far edge, here and in rectangles. -/
structure Rule where
  x₁ : Float
  y₁ : Float
  x₂ : Float
  y₂ : Float
  color : Option Color := none
  width : Float := 0

structure Box where
  x : Float
  y : Float
  width : Float
  height : Float
  radius : Float := 0
  fillColor : Option Color := none
  borderColor : Option Color := none
  borderWidth : Float := 0

/-- What may stand in a header or footer. -/
inductive BandContent where
  | text (t : Text)
  | image (i : Image)
  | rule (r : Rule)

/-- What may stand in a section. -/
inductive Content where
  | band (c : BandContent)
  | table (t : Table)
  | list (l : BulletList)
  | keyValues (l : KeyValues)
  | box (b : Box)
  | pageBreak

/-- Something to draw, with what everything that is drawn may have. -/
structure Element (C : Type) where
  /-- Kept as it is written; nothing depends on it. -/
  condition : Option String
  /-- Free space below. -/
  spacing : Float
  content : C

def Element.map {C D : Type} (f : C → D) (e : Element C) : Element D :=
  { e with content := f e.content }

def BandContent.tag : BandContent → String
  | .text _ => "text"
  | .image _ => "image"
  | .rule _ => "line"

/-- The tag that content of a kind is written with. -/
def Content.tag : Content → String
  | .band c => c.tag
  | .table _ => "table"
  | .list _ => "list"
  | .keyValues _ => "keyValueList"
  | .box _ => "rectangle"
  | .pageBreak => "pageBreak"

end Report

end PagedReport
