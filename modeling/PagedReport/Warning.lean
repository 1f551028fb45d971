import PagedReport.Canvas.Device
import PagedReport.Data.Value

/-!
# Warnings

What a report says without failing.
-/

namespace PagedReport

/-- A place in a template, counted from one. -/
structure Position where
  line : Nat := 1
  column : Nat := 1
deriving DecidableEq, Repr, Inhabited

def Position.text (p : Position) : String := s!"line {p.line}, column {p.column}"

/-- The kind of a value in messages about data sources. -/
def Value.kindName : Value → String
  | .null => "null"
  | .bool _ => "a boolean"
  | .number _ => "a number"
  | .string _ => "a string"
  | .array _ => "a list"
  | .object _ => "an object"

inductive Warning where
  /-- A colour had components outside of a byte. -/
  | clampedColor (tag : String) (place : Position) (used : Color)
  | ignoredCustomSize
  | undefinedStyle (name : String)
  /-- The family is there, the style is not. -/
  | missingFontStyle (family : String) (style : FontStyle)
  | missingFont (family : String)
  | unreadableFont (name path : String) (cause : FileError)
  | rejectedFont (name : String) (cause : CanvasError)
  | tableSourceNotList (source : String) (found : String)
  | tableSourceMissing (source : String)
  | listSourceMissing (source : String)

def Warning.message : Warning → String
  | .clampedColor tag place c =>
    s!"Color <{tag}> at {place.text} has components outside 0..=255, clamped to " ++
      s!"({c.red}, {c.green}, {c.blue})"
  | .ignoredCustomSize => "Ignoring <customSize> without a positive width and height"
  | .undefinedStyle name => s!"Style '{name}' is not defined"
  | .missingFontStyle family style =>
    s!"Font '{family}' has no '{style.letters}' style registered, using the regular style"
  | .missingFont family => s!"Font '{family}' is not available, falling back to Helvetica"
  | .unreadableFont name path cause =>
    s!"Could not read font '{name}' from '{path}': {cause.message}"
  | .rejectedFont name cause => s!"Could not register font '{name}': {cause.message}"
  | .tableSourceNotList source found =>
    s!"Table data source '{source}' is not a list (found {found}), rendering the header only"
  | .tableSourceMissing source =>
    s!"Table data source '{source}' not found, rendering the header only"
  | .listSourceMissing source => s!"List items '{source}' not found or not a list"

end PagedReport
