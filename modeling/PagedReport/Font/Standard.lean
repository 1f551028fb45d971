import PagedReport.Font.Key

/-!
# The standard fonts

Every viewer has three families in four styles each.  Their widths are known without a font file,
and they are drawn in the encoding of Windows-1252.  Slanted faces have the widths of upright ones.
-/

namespace PagedReport

inductive StandardFamily where
  | helvetica
  | times
  | courier
deriving DecidableEq, Repr

structure StandardFont where
  family : StandardFamily
  style : FontStyle
deriving DecidableEq, Repr

namespace StandardFont

def ofKey? (key : FontKey) : Option StandardFont :=
  match key.family with
  | "helvetica" => some ⟨.helvetica, key.style⟩
  | "times" => some ⟨.times, key.style⟩
  | "courier" => some ⟨.courier, key.style⟩
  | _ => none

/-- The name of the face in a document. -/
def faceName (f : StandardFont) : String :=
  let slanted := fun (word : String) ↦
    match f.style.bold, f.style.italic with
    | true, true => "-Bold" ++ word
    | true, false => "-Bold"
    | false, true => "-" ++ word
    | false, false => ""
  match f.family with
  | .helvetica => "Helvetica" ++ slanted "Oblique"
  | .courier => "Courier" ++ slanted "Oblique"
  | .times => if f.style = .regular then "Times-Roman" else "Times" ++ slanted "Italic"

/-- Widths from the space to the tilde. -/
def helveticaWidths : Array Nat := #[
    278, 278, 355, 556, 556, 889, 667, 191, 333, 333, 389, 584, 278, 333, 278, 278,
    556, 556, 556, 556, 556, 556, 556, 556, 556, 556, 278, 278, 584, 584, 584, 556,
    1015, 667, 667, 722, 722, 667, 611, 778, 722, 278, 500, 667, 556, 833, 722, 778,
    667, 778, 722, 667, 611, 722, 667, 944, 667, 667, 611, 278, 278, 278, 469, 556,
    333, 556, 556, 500, 556, 556, 278, 556, 556, 222, 222, 500, 222, 833, 556, 556,
    556, 556, 333, 500, 278, 556, 500, 722, 500, 500, 500, 334, 260, 334, 584]

def helveticaBoldWidths : Array Nat := #[
    278, 333, 474, 556, 556, 889, 722, 238, 333, 333, 389, 584, 278, 333, 278, 278,
    556, 556, 556, 556, 556, 556, 556, 556, 556, 556, 333, 333, 584, 584, 584, 611,
    975, 722, 722, 722, 722, 667, 611, 778, 722, 278, 556, 722, 611, 833, 722, 778,
    667, 778, 722, 667, 611, 722, 667, 944, 667, 667, 611, 333, 278, 333, 584, 556,
    333, 556, 611, 556, 611, 556, 333, 611, 611, 278, 278, 556, 278, 889, 611, 611,
    611, 611, 389, 556, 333, 611, 556, 778, 556, 556, 500, 389, 280, 389, 584]

def timesWidths : Array Nat := #[
    250, 333, 408, 500, 500, 833, 778, 180, 333, 333, 500, 564, 250, 333, 250, 278,
    500, 500, 500, 500, 500, 500, 500, 500, 500, 500, 278, 278, 564, 564, 564, 444,
    921, 722, 667, 667, 722, 611, 556, 722, 722, 333, 389, 722, 611, 889, 722, 722,
    556, 722, 667, 556, 611, 722, 722, 944, 722, 722, 611, 333, 278, 333, 469, 500,
    333, 444, 500, 444, 500, 444, 333, 500, 500, 278, 278, 500, 278, 778, 500, 500,
    500, 500, 333, 389, 278, 500, 500, 722, 500, 500, 444, 480, 200, 480, 541]

def timesBoldWidths : Array Nat := #[
    250, 333, 555, 500, 500, 1000, 833, 278, 333, 333, 500, 570, 250, 333, 250, 278,
    500, 500, 500, 500, 500, 500, 500, 500, 500, 500, 333, 333, 570, 570, 570, 500,
    930, 722, 667, 722, 722, 667, 611, 778, 778, 389, 500, 778, 667, 944, 722, 778,
    611, 778, 722, 556, 667, 722, 722, 1000, 722, 722, 667, 333, 278, 333, 581, 500,
    333, 500, 556, 444, 556, 444, 333, 500, 556, 278, 333, 556, 278, 833, 556, 500,
    556, 556, 444, 389, 333, 556, 500, 722, 500, 500, 444, 394, 220, 394, 520]

/-- The widths of printable ASCII, if they differ, and the width of almost all else. -/
def metrics (f : StandardFont) : Option (Array Nat) × Nat :=
  match f.family, f.style.bold with
  | .courier, _ => (none, 600)
  | .helvetica, false => (some helveticaWidths, 556)
  | .helvetica, true => (some helveticaBoldWidths, 556)
  | .times, false => (some timesWidths, 500)
  | .times, true => (some timesBoldWidths, 500)

/-- The advance of a character in thousandths of an em. -/
def charWidth (f : StandardFont) (c : Char) : Nat :=
  match f.metrics with
  | (none, w) => w
  | (some table, other) =>
    if 32 ≤ c.toNat ∧ c.toNat ≤ 126 then table.getD (c.toNat - 32) other
    else if c = '\u2022' then 350
    else other

def textWidth (f : StandardFont) (s : String) : Nat :=
  s.toList.foldr (fun c total ↦ f.charWidth c + total) 0

end StandardFont

/-! ## Windows-1252 -/

namespace WinAnsi

/-- Characters from `0x80` to `0x9F`. -/
def upper : List (Nat × UInt8) :=
  [ (0x20ac, 0x80), (0x201a, 0x82), (0x192, 0x83), (0x201e, 0x84), (0x2026, 0x85),
    (0x2020, 0x86), (0x2021, 0x87), (0x2c6, 0x88), (0x2030, 0x89), (0x160, 0x8a),
    (0x2039, 0x8b), (0x152, 0x8c), (0x17d, 0x8e), (0x2018, 0x91), (0x2019, 0x92),
    (0x201c, 0x93), (0x201d, 0x94), (0x2022, 0x95), (0x2013, 0x96), (0x2014, 0x97),
    (0x2dc, 0x98), (0x2122, 0x99), (0x161, 0x9a), (0x203a, 0x9b), (0x153, 0x9c), (0x17e, 0x9e),
    (0x178, 0x9f) ]

/-- The byte of a character, a question mark if it has none. -/
def byte (c : Char) : UInt8 :=
  let n := c.toNat
  if n < 0x80 ∨ (0xA0 ≤ n ∧ n ≤ 0xFF) then UInt8.ofNat n
  else (upper.lookup n).getD 0x3F

def encode (s : String) : List UInt8 := s.toList.map byte

end WinAnsi

end PagedReport
