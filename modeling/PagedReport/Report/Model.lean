import PagedReport.Report.Element

/-!
# Reports

A report is a page setup, fonts and styles to draw with, bands for the top and bottom of every page,
and sections, which are drawn one after another.
-/

namespace PagedReport

namespace Report

structure Metadata where
  name : String := ""
  description : String := ""
  author : String := ""
  created : String := ""
  modified : String := ""

/-- A font file to be known by a family and a style. -/
structure FontFile where
  name : String
  family : String
  style : String
  file : String

/-- A named bundle of settings; those that are left out stay as they are. -/
structure Style where
  name : String
  fontFamily : Option String := none
  /-- Letters of a font style, in any order. -/
  fontStyle : String := ""
  /-- In points; zero keeps the size. -/
  fontSize : Float := 0
  textColor : Option Color := none
  fillColor : Option Color := none
  align : Option Align := none
  /-- Zero stands for the usual height. -/
  lineHeight : Float := 0

/-- A header or footer. -/
structure Band where
  enabled : Bool
  height : Float
  elements : List (Element BandContent) := []

/-- The height of a band that declares none. -/
def Band.usualHeight : Float := 15

structure Section where
  name : String
  breakBefore : Bool := false
  breakAfter : Bool := false
  /-- Kept as they are written: a section is drawn exactly once. -/
  condition : Option String := none
  loop : Option String := none
  loopVariable : Option String := none
  elements : List (Element Content) := []

end Report

open Report in
structure Report where
  version : String := ""
  metadata : Option Metadata := none
  setup : PageSetup Float := default
  fonts : List FontFile := []
  styles : List Style := []
  header : Option Band := none
  footer : Option Band := none
  sections : List Section := []

end PagedReport
