import PagedReport.Canvas.Shape
import PagedReport.Image.Fault

/-!
# Devices

A device knows absolute places on pages and nothing of cursors, margins or units.  Fonts and images
are its own: it says which fonts it has and how wide a text is in them, and it loads images from
their files.  Only loading can fail.
-/

namespace PagedReport

/-- Why a font program is refused. -/
inductive FontFault where
  | noData
  | unknownMagic
  /-- A collection without fonts. -/
  | noFont
  | malformed
  | noHead
  | noHorizontalHeader
  | noMaximumProfile
deriving DecidableEq, Repr

inductive CanvasError where
  | font (family : String) (fault : FontFault)
  | image (path : String) (fault : ImageFault)
  /-- Drawing on a document that is closed. -/
  | closed
  /-- The finished document could not be written. -/
  | output (reason : String)
deriving DecidableEq, Repr

def FontFault.message (family : String) : FontFault → String
  | .noData => s!"font '{family}' has no data"
  | .unknownMagic => s!"invalid font data for '{family}': unknown magic"
  | .noFont => s!"invalid font data for '{family}': face index is out of bounds"
  | .malformed => s!"invalid font data for '{family}': malformed font"
  | .noHead => s!"invalid font data for '{family}': the head table is missing or malformed"
  | .noHorizontalHeader =>
    s!"invalid font data for '{family}': the hhea table is missing or malformed"
  | .noMaximumProfile =>
    s!"invalid font data for '{family}': the maxp table is missing or malformed"

def CanvasError.message : CanvasError → String
  | .font family fault => s!"Font error: {fault.message family}"
  | .image path fault => s!"Image error for '{path}': {fault.message}"
  | .closed => "Document is already closed"
  | .output reason => s!"Output error: {reason}"

/-- Where a finished document goes. -/
inductive Sink where
  | sound
  /-- Refuses every write. -/
  | broken (reason : String)
deriving DecidableEq, Repr

/-- A device `D` that measures in `K` and is finished into an `Output`. -/
class Device (K : outParam Type) (D : Type) (Output : outParam Type) where
  /-- Takes a font program under a key. -/
  registerFont : FontKey → ByteArray → D → Except CanvasError D
  /-- Whether a font program is registered under a key. -/
  hasFont : D → FontKey → Bool
  /-- The width of a text in thousandths of an em. -/
  textWidth : D → FontKey → String → K
  /-- The extent of an image in pixels; the image is loaded for it. -/
  imageSize : String → D → Except CanvasError ((Nat × Nat) × D)
  beginPage : Size K → D → D
  mark : Mark K → D → D
  image : String → Rect K → D → Except CanvasError D
  finish : DocumentInfo → Sink → D → Except CanvasError (Output × D)

end PagedReport
