import PagedReport.Font.Standard
import PagedReport.Font.TrueType
import PagedReport.Pdf.Object
import PagedReport.Pdf.UnicodeMap

/-!
# Fonts of a document

A standard font is only named.  A TrueType font is embedded as a whole, its texts are written as
glyph numbers, and the widths and characters of the glyphs drawn are declared beside it.
-/

namespace PagedReport

namespace Pdf

structure EmbeddedFont where
  name : String
  program : TrueType
  /-- The glyphs drawn so far, each with the first character it was drawn for. -/
  used : UnicodeMap := []

namespace EmbeddedFont

/-- A name for a font: the letters and digits of its family, then its style. -/
def nameOf (key : FontKey) : String :=
  let family := String.ofList (key.family.toList.filter Char.isAlphanum)
  let family := if family.isEmpty then "Embedded" else family
  if key.style.letters.isEmpty then family else family ++ "-" ++ key.style.letters

def read (key : FontKey) (data : ByteArray) : Except CanvasError EmbeddedFont :=
  match TrueType.read data with
  | .ok program => .ok { name := nameOf key, program }
  | .error fault => .error (.font key.family fault)

/-- The bytes of a glyph number. -/
def glyphBytes (g : UInt16) : List UInt8 := [UInt8.ofNat (g.toNat / 256), UInt8.ofNat g.toNat]

/-- Notes the glyph of a character as drawn; the missing glyph stands for no character. -/
def use (f : EmbeddedFont) (c : Char) : EmbeddedFont :=
  let g := f.program.glyph c
  if g = 0 then f else { f with used := f.used.note g c }

/-- The bytes of a text, and the font with its glyphs noted. -/
def encode (f : EmbeddedFont) (text : String) : List UInt8 × EmbeddedFont :=
  (text.toList.flatMap fun c ↦ glyphBytes (f.program.glyph c), text.toList.foldl use f)

/-! ## Objects -/

/-- The widths of the glyphs drawn, in thousandths of an em. -/
def widths (f : EmbeddedFont) : List Object :=
  f.used.flatMap fun (g, _) ↦
    [ .integer g.toNat,
      .array [.integer (f.program.inThousandths (f.program.advance g))] ]

def fileObject (f : EmbeddedFont) : Object :=
  .stream [("Length1", .integer f.program.data.size)] f.program.data true

def descriptor (f : EmbeddedFont) : Object :=
  let p := f.program
  let scaled := fun (v : Int) ↦ Object.integer (p.inThousandths v)
  let (left, bottom, right, top) := p.bounds
  .dictionary [
    ("Type", .name "FontDescriptor"),
    ("FontName", .name f.name),
    ("Flags", .integer 32),
    ("FontBBox", .array [scaled left, scaled bottom, scaled right, scaled top]),
    ("ItalicAngle", .integer 0),
    ("Ascent", scaled p.ascender),
    ("Descent", scaled p.descender),
    ("CapHeight", scaled (p.capHeight.getD p.ascender)),
    ("StemV", .integer 80),
    ("FontFile2", .indirect f.fileObject) ]

/-- The font whose codes are glyph numbers. -/
def glyphFont (f : EmbeddedFont) : Object :=
  .dictionary [
    ("Type", .name "Font"),
    ("Subtype", .name "CIDFontType2"),
    ("BaseFont", .name f.name),
    ("CIDSystemInfo", .dictionary [
      ("Registry", .text "Adobe".toUTF8.toList),
      ("Ordering", .text "Identity".toUTF8.toList),
      ("Supplement", .integer 0) ]),
    ("FontDescriptor", .indirect f.descriptor),
    ("W", .array f.widths),
    ("CIDToGIDMap", .name "Identity") ]

def object (f : EmbeddedFont) : Object :=
  .dictionary [
    ("Type", .name "Font"),
    ("Subtype", .name "Type0"),
    ("BaseFont", .name f.name),
    ("Encoding", .name "Identity-H"),
    ("DescendantFonts", .array [.indirect f.glyphFont]),
    ("ToUnicode", .indirect (.stream [] f.used.text.toUTF8 true)) ]

end EmbeddedFont

/-- What a text is drawn with. -/
inductive FontProgram where
  | standard (f : StandardFont)
  | embedded (f : EmbeddedFont)

namespace FontProgram

/-- The width of a text in thousandths of an em. -/
def textWidth (text : String) : FontProgram → Float
  | standard f => Scalar.whole (f.textWidth text)
  | embedded f => f.program.textWidth text

/-- The bytes of a text and whether they are glyph numbers, and the program with its glyphs
noted. -/
def encode (text : String) : FontProgram → List UInt8 × Bool × FontProgram
  | standard f => (WinAnsi.encode text, false, standard f)
  | embedded f =>
    let (bytes, f) := f.encode text
    (bytes, true, embedded f)

def standardObject (f : StandardFont) : Object :=
  .dictionary [
    ("Type", .name "Font"),
    ("Subtype", .name "Type1"),
    ("BaseFont", .name f.faceName),
    ("Encoding", .name "WinAnsiEncoding") ]

def object : FontProgram → Object
  | standard f => standardObject f
  | embedded f => f.object

end FontProgram

end Pdf

end PagedReport
