/-!
# From glyphs back to text

A font with glyph numbers for codes comes with a map that says which character each glyph stands
for.  Entries are written in blocks of at most a hundred, glyphs in hexadecimal and characters in
the hexadecimal units of UTF-16.
-/

namespace PagedReport

namespace Pdf

/-- Glyphs with their characters, in the order of the glyphs. -/
abbrev UnicodeMap := List (UInt16 × Char)

namespace UnicodeMap

/-- Notes a glyph for a character, unless the glyph already stands for one. -/
def note (glyph : UInt16) (c : Char) : UnicodeMap → UnicodeMap
  | [] => [(glyph, c)]
  | (g, d) :: rest =>
    if glyph < g then (glyph, c) :: (g, d) :: rest
    else if glyph = g then (g, d) :: rest
    else (g, d) :: note glyph c rest

def hexDigit (n : Nat) : Char := if n < 10 then Char.ofNat (48 + n) else Char.ofNat (55 + n)

/-- Four hexadecimal digits. -/
def hexWord (n : Nat) : String :=
  String.ofList [hexDigit (n / 4096 % 16), hexDigit (n / 256 % 16), hexDigit (n / 16 % 16),
    hexDigit (n % 16)]

/-- The units of a character in UTF-16. -/
def units (c : Char) : List Nat :=
  let n := c.toNat
  if n < 0x10000 then [n]
  else [0xD800 + (n - 0x10000) / 0x400, 0xDC00 + (n - 0x10000) % 0x400]

def entryLine (e : UInt16 × Char) : String :=
  "<" ++ hexWord e.1.toNat ++ "> <" ++ String.join ((units e.2).map hexWord) ++ ">\n"

def blockSize : Nat := 100

/-- Parts of at most `blockSize` entries; there are fewer than `fuel`. -/
def blocksFrom : Nat → UnicodeMap → List UnicodeMap
  | 0, _ => []
  | fuel + 1, m => if m.isEmpty then [] else m.take blockSize :: blocksFrom fuel (m.drop blockSize)

def blocks (m : UnicodeMap) : List UnicodeMap := blocksFrom (m.length + 1) m

def blockText (b : UnicodeMap) : String :=
  toString b.length ++ " beginbfchar\n" ++ String.join (b.map entryLine) ++ "endbfchar\n"

def opening : String :=
  "/CIDInit /ProcSet findresource begin\n12 dict begin\nbegincmap\n" ++
  "/CIDSystemInfo << /Registry (Adobe) /Ordering (UCS) /Supplement 0 >> def\n" ++
  "/CMapName /Adobe-Identity-UCS def\n/CMapType 2 def\n" ++
  "1 begincodespacerange\n<0000> <FFFF>\nendcodespacerange\n"

def closing : String := "endcmap\nCMapName currentdict /CMap defineresource pop\nend\nend\n"

/-- The whole text of a map. -/
def text (m : UnicodeMap) : String :=
  opening ++ String.join (m.blocks.map blockText) ++ closing

end UnicodeMap

end Pdf

end PagedReport
