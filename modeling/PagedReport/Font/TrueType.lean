import PagedReport.Canvas.Device
import PagedReport.Font.CharacterMap

/-!
# TrueType fonts

What layout and embedding need of a font file: its metrics, the glyphs of characters and the
advances of glyphs.  The file itself is kept as it is.
-/

namespace PagedReport

structure TrueType where
  data : ByteArray
  unitsPerEm : Nat
  ascender : Int
  descender : Int
  capHeight : Option Int
  /-- Least and greatest coordinates: left, bottom, right, top. -/
  bounds : Int × Int × Int × Int
  map : CharacterMap
  /-- The advance widths of the first glyphs; the others have the width of the last of these. -/
  advances : Array Nat
  /-- The number of glyphs that have a width. -/
  widths : Nat

namespace TrueType

open BigEndian

/-! ## Tables -/

/-- Where the tables of the only or first font of a file are listed. -/
def directory (data : ByteArray) : Except FontFault Nat :=
  let isFont := fun (magic : Nat) ↦
    magic == 0x00010000 || magic == 0x74727565 || magic == 0x4F54544F
  match long? data 0 with
  | none => .error .unknownMagic
  | some magic =>
    if isFont magic then .ok 4
    else if magic == 0x74746366 then
      match long? data 8 with
      | none => .error .malformed
      | some count =>
        if data.size < 12 + 4 * count then .error .malformed
        else if count = 0 then .error .noFont
        else
          let offset := (long? data 12).getD 0
          if offset < 12 + 4 * count || data.size < offset then .error .malformed
          else
            match long? data offset with
            | none => .error .unknownMagic
            | some magic => if isFont magic then .ok (offset + 4) else .error .unknownMagic
    else .error .unknownMagic

/-- The tables of a file by their tags; of two with one tag the later counts. -/
def tables (data : ByteArray) : Except FontFault (List (Nat × Option ByteArray)) := do
  let start ← directory data
  match word? data start with
  | none => .error .malformed
  | some count =>
    let records := start + 8
    if data.size < records + 16 * count then .error .malformed
    else
      .ok <| (List.range count).reverse.filterMap fun i ↦ do
        let tag ← long? data (records + 16 * i)
        let offset ← long? data (records + 16 * i + 8)
        let size ← long? data (records + 16 * i + 12)
        return (tag, slice? data offset size)

/-! ## Metrics -/

/-- Units per em and bounds. -/
def head? (t : ByteArray) : Option (Nat × (Int × Int × Int × Int)) := do
  if t.size < 54 then failure
  let units ← word? t 18
  let left ← signedWord? t 36
  let bottom ← signedWord? t 38
  let right ← signedWord? t 40
  let top ← signedWord? t 42
  let format ← word? t 50
  if 1 < format || units < 16 || 16384 < units then failure
  return (units, (left, bottom, right, top))

/-- Ascender, descender and the number of advance widths. -/
def horizontal? (t : ByteArray) : Option (Int × Int × Nat) := do
  let ascender ← signedWord? t 4
  let descender ← signedWord? t 6
  let count ← word? t 34
  return (ascender, descender, count)

/-- The number of glyphs. -/
def glyphCount? (t : ByteArray) : Option Nat := do
  let version ← long? t 0
  let count ← word? t 4
  if version ≠ 0x00005000 ∧ version ≠ 0x00010000 ∨ count = 0 then failure
  return count

/-- The advance widths, if the table holds them all. -/
def advances? (t : ByteArray) (count : Nat) : Option (Array Nat) :=
  if count = 0 || t.size < 4 * count then none
  else some <| Array.ofFn fun (i : Fin count) ↦ (word? t (4 * i)).getD 0

/-- The table of metrics for particular systems, if it is as long as its version says. -/
def systemMetrics? (t : ByteArray) : Option (Nat × ByteArray) := do
  let version ← word? t 0
  let size ← [78, 86, 96, 96, 96, 100][version]?
  if t.size < size then failure
  return (version, t)

/-- Ascender and descender: by the table for systems if it says that it is to be used, else by the
horizontal header unless that has none. -/
def verticalMetrics (system : Option (Nat × ByteArray)) (ascender descender : Int) : Int × Int :=
  match system with
  | none => (ascender, descender)
  | some (version, t) =>
    let at_ := fun (offset : Nat) ↦ (signedWord? t offset).getD 0
    let preferred := 4 ≤ version && (word? t 62).getD 0 / 128 % 2 == 1
    if preferred then (at_ 68, at_ 70)
    else
      let choose := fun (own typographic system : Int) ↦
        if own ≠ 0 then own else if typographic ≠ 0 then typographic else system
      (choose ascender (at_ 68) (at_ 74), choose descender (at_ 70) (-at_ 76))

def tagHead : Nat := 0x68656164
def tagHorizontal : Nat := 0x68686561
def tagProfile : Nat := 0x6D617870
def tagAdvances : Nat := 0x686D7478
def tagMap : Nat := 0x636D6170
def tagSystem : Nat := 0x4F532F32

/-- Reads a font file. -/
def read (data : ByteArray) : Except FontFault TrueType := do
  let tables ← tables data
  let table? := fun (tag : Nat) ↦ (tables.lookup tag).join
  let require {α : Type} (fault : FontFault) (o : Option α) : Except FontFault α :=
    match o with
    | some a => .ok a
    | none => .error fault
  let (unitsPerEm, bounds) ← require .noHead ((table? tagHead).bind head?)
  let (ascender, descender, metrics) ←
    require .noHorizontalHeader ((table? tagHorizontal).bind horizontal?)
  let glyphs ← require .noMaximumProfile ((table? tagProfile).bind glyphCount?)
  let system := (table? tagSystem).bind systemMetrics?
  let vertical := verticalMetrics system ascender descender
  let advances := ((table? tagAdvances).bind (advances? · metrics)).getD #[]
  return {
    data
    unitsPerEm
    ascender := vertical.1
    descender := vertical.2
    capHeight := system.bind fun (version, t) ↦ if version < 2 then none else signedWord? t 88
    bounds
    map := ((table? tagMap).bind CharacterMap.read?).getD {}
    advances
    widths := if advances.isEmpty then 0 else max metrics glyphs }

/-! ## Glyphs -/

/-- The glyph of a character, the missing glyph zero if it has none. -/
def glyph (f : TrueType) (c : Char) : UInt16 := UInt16.ofNat ((f.map.glyph? c).getD 0)

/-- The advance of a glyph in font units. -/
def advance (f : TrueType) (glyph : UInt16) : Nat :=
  if f.widths ≤ glyph.toNat then 0 else f.advances.getD glyph.toNat (f.advances.back?.getD 0)

/-- The width of a text in thousandths of an em. -/
def textWidth (f : TrueType) (text : String) : Float :=
  let units := text.toList.foldr (fun c total ↦ f.advance (f.glyph c) + total) 0
  Float.ofNat units * 1000 / Float.ofNat f.unitsPerEm

/-- A length in thousandths of an em, rounded to the nearest integer, a half away from zero. -/
def inThousandths (f : TrueType) (units : Int) : Int :=
  let rounded : Nat := (2 * 1000 * units.natAbs + f.unitsPerEm) / (2 * f.unitsPerEm)
  if units < 0 then -rounded else rounded

end TrueType

end PagedReport
