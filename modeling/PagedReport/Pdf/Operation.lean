import PagedReport.Canvas.Shape
import PagedReport.Pdf.Object

/-!
# Operations on a page

The content of a page is a list of operations on a graphics state.  Places count from the lower left
corner and lengths are in single precision.
-/

namespace PagedReport

namespace Pdf

/-- Red, green and blue between zero and one. -/
abbrev Shade := Float32 × Float32 × Float32

inductive Operation where
  | beginText
  | endText
  | setFont (resource : String) (size : Float32)
  | moveText (x y : Float32)
  | showText (bytes : List UInt8) (hex : Bool)
  | setFillColor (c : Shade)
  | setStrokeColor (c : Shade)
  | setLineWidth (w : Float32)
  | moveTo (x y : Float32)
  | lineTo (x y : Float32)
  /-- A cubic curve by two control points and its end. -/
  | curveTo (x₁ y₁ x₂ y₂ x₃ y₃ : Float32)
  | closePath
  | rectangle (x y width height : Float32)
  | paintPath (painting : Painting)
  | save
  | restore
  /-- Lets the unit square stand for a rectangle. -/
  | place (width height x y : Float32)
  | drawResource (name : String)

namespace Operation

/-- The operator of an operation and its operands. -/
def written : Operation → String × List Object
  | beginText => ("BT", [])
  | endText => ("ET", [])
  | setFont resource size => ("Tf", [.name resource, .real size])
  | moveText x y => ("Td", [.real x, .real y])
  | showText bytes hex => ("Tj", [.string bytes hex])
  | setFillColor (r, g, b) => ("rg", [.real r, .real g, .real b])
  | setStrokeColor (r, g, b) => ("RG", [.real r, .real g, .real b])
  | setLineWidth w => ("w", [.real w])
  | moveTo x y => ("m", [.real x, .real y])
  | lineTo x y => ("l", [.real x, .real y])
  | curveTo x₁ y₁ x₂ y₂ x₃ y₃ =>
    ("c", [.real x₁, .real y₁, .real x₂, .real y₂, .real x₃, .real y₃])
  | closePath => ("h", [])
  | rectangle x y width height => ("re", [.real x, .real y, .real width, .real height])
  | paintPath .fill => ("f", [])
  | paintPath .stroke => ("S", [])
  | paintPath .fillStroke => ("B", [])
  | save => ("q", [])
  | restore => ("Q", [])
  | place width height x y =>
    ("cm", [.real width, .integer 0, .integer 0, .real height, .real x, .real y])
  | drawResource name => ("Do", [.name name])

end Operation

end Pdf

end PagedReport
