import PagedReport.Files
import PagedReport.Layout.Styles
import PagedReport.Placeholder.Fragment
import PagedReport.Placeholder.Source

/-!
# What elements are drawn with

The context of a run is the same for bodies and bands: the page setup, the styles, the data and the
directories of fonts and images.
-/

namespace PagedReport

structure Context where
  setup : PageSetup Float := default
  styles : Styles
  data : Value
  helpers : Helpers := .standard
  /-- Where relative paths of font files start. -/
  fontDirectory : Option String := none
  /-- Where relative paths of images start. -/
  imageDirectory : Option String := none

namespace Context

/-- A text with its actions replaced. -/
def resolve (ctx : Context) (fragment : String) : String :=
  PagedReport.resolve ctx.helpers ctx.data fragment

/-- The value that a reference finds in the data. -/
def source? (ctx : Context) (reference : String) : Option Value := Source.find ctx.data reference

def fontPath (ctx : Context) (file : String) : String := FileTree.join ctx.fontDirectory file

def imagePath (ctx : Context) (file : String) : String := FileTree.join ctx.imageDirectory file

end Context

end PagedReport
