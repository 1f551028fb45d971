import PagedReport.Number.Scalar
import PagedReport.Text.Blank
import PagedReport.Text.Case

/-!
# Font keys

A font is known by its family, trimmed and in lower case, and by whether it is bold and whether it
is italic.  `arial` is another name of `helvetica`.
-/

namespace PagedReport

structure FontStyle where
  bold : Bool := false
  italic : Bool := false
deriving DecidableEq, Repr, Inhabited, Hashable

namespace FontStyle

def regular : FontStyle := {}

/-- The letters of a style. -/
def letters (s : FontStyle) : String :=
  (if s.bold then "B" else "") ++ (if s.italic then "I" else "")

/-- Whether a style text has a letter among its capitals. -/
def mentions (letter : Char) (text : String) : Bool := (upperText text).toList.contains letter

def ofText (text : String) : FontStyle := ⟨mentions 'B' text, mentions 'I' text⟩

end FontStyle

structure FontKey where
  family : String
  style : FontStyle := .regular
deriving DecidableEq, Repr, Inhabited, Hashable

namespace FontKey

def familyName (text : String) : String :=
  let name := lowerText (trimmed text)
  if name == "arial" then "helvetica" else name

def ofText (family style : String) : FontKey := ⟨familyName family, .ofText style⟩

end FontKey

/-- The font in effect: its size is in points, whatever the unit of the document. -/
structure FontChoice (K : Type) where
  key : FontKey
  size : K
  underline : Bool := false

instance {K : Type} [Scalar K] : Inhabited (FontChoice K) := ⟨⟨⟨"helvetica", .regular⟩, 12, false⟩⟩

end PagedReport
