import PagedReport.Number.BigEndian

/-!
# Character maps of fonts

A font maps characters to glyphs by tables of several formats.  The first table for Unicode that has
a glyph for a character decides.
-/

namespace PagedReport

/-- A table that maps character codes to glyphs, by its format. -/
inductive CharacterTable where
  /-- A glyph for every byte. -/
  | bytes (data : ByteArray)
  /-- Ranges of words, each with an offset or a list of glyphs of its own. -/
  | segments (data : ByteArray) (count : Nat)
  /-- Glyphs for words from a first one on. -/
  | words (data : ByteArray) (first count : Nat)
  /-- Glyphs for codes from a first one on. -/
  | longs (data : ByteArray) (first count : Nat)
  /-- Ranges of codes with consecutive glyphs. -/
  | groups (data : ByteArray) (count : Nat)
  /-- Ranges of codes with one glyph each. -/
  | ranges (data : ByteArray) (count : Nat)
  /-- A format without glyphs for single characters. -/
  | other

namespace CharacterTable

open BigEndian

/-- The table that data begin with. -/
def read? (data : ByteArray) : Option CharacterTable := do
  let format ← word? data 0
  let holds := fun (size : Nat) ↦ if size ≤ data.size then some () else none
  match format with
  | 0 => holds 262; return .bytes data
  | 2 => return .other
  | 4 =>
    let doubled ← word? data 6
    if doubled < 2 then failure
    let count := doubled / 2
    holds (16 + 8 * count)
    return .segments data count
  | 6 =>
    let first ← word? data 6
    let count ← word? data 8
    holds (10 + 2 * count)
    return .words data first count
  | 8 => return .other
  | 10 =>
    let first ← long? data 12
    let count ← long? data 16
    holds (20 + 2 * count)
    return .longs data first count
  | 12 =>
    let count ← long? data 12
    holds (16 + 12 * count)
    return .groups data count
  | 13 =>
    let count ← long? data 12
    holds (16 + 12 * count)
    return .ranges data count
  | 14 => return .other
  | _ => failure

/-! ## Segments -/

/-- The glyph of a code in segment `i`, which holds the code. -/
def segmentGlyph? (data : ByteArray) (count i start code : Nat) : Option Nat := do
  let delta ← word? data (16 + 4 * count + 2 * i)
  let offsets := 16 + 6 * count
  let offset ← word? data (offsets + 2 * i)
  if offset = 0 then return (code + delta) % 0x10000
  if offset = 0xFFFF || 0x10000 ≤ (code - start) * 2 then failure
  let glyph ← word? data ((offsets + 2 * i + (code - start) * 2 + offset) % 0x10000)
  if glyph = 0 then failure
  let shifted := (glyph + delta) % 0x10000
  if shifted < 0x8000 then return shifted else failure

/-- Looks for a code between two segments, in at most `fuel` steps. -/
def findSegment? (data : ByteArray) (count code : Nat) : Nat → (low high : Nat) → Option Nat
  | 0, _, _ => none
  | fuel + 1, low, high =>
    if high ≤ low then none
    else do
      let i := (low + high) / 2
      let last ← word? data (14 + 2 * i)
      if last < code then findSegment? data count code fuel (i + 1) high
      else
        let first ← word? data (16 + 2 * count + 2 * i)
        if code < first then findSegment? data count code fuel low i
        else segmentGlyph? data count i first code

/-! ## Groups -/

/-- The first and the last code of a group, and its glyph. -/
def group? (data : ByteArray) (i : Nat) : Option (Nat × Nat × Nat) := do
  let first ← long? data (16 + 12 * i)
  let last ← long? data (20 + 12 * i)
  let glyph ← long? data (24 + 12 * i)
  return (first, last, glyph)

/-- The last of the groups from `base` on, `size` of them, that does not begin after a code. -/
def findGroup? (data : ByteArray) (code : Nat) : Nat → (base size : Nat) → Option Nat
  | 0, base, _ => some base
  | fuel + 1, base, size =>
    if size ≤ 1 then some base
    else do
      let half := size / 2
      let (first, _, _) ← group? data (base + half)
      findGroup? data code fuel (if code < first then base else base + half) (size - half)

/-- A glyph number that a font can have. -/
def glyphNumber? (n : Nat) : Option Nat := if n < 0x10000 then some n else none

/-- The glyph of a character code. -/
def glyph? (t : CharacterTable) (code : Nat) : Option Nat :=
  match t with
  | bytes data =>
    if code < 256 then (data[6 + code]?.map (·.toNat)).filter (· ≠ 0) else none
  | segments data count =>
    if code < 0x10000 then findSegment? data count code (count + 1) 0 count else none
  | words data first count =>
    if first ≤ code && code < first + count then word? data (10 + 2 * (code - first)) else none
  | longs data first count =>
    if first ≤ code && code < first + count then word? data (20 + 2 * (code - first)) else none
  | groups data count =>
    if count = 0 then none
    else do
      let i ← findGroup? data code count 0 count
      let (first, last, glyph) ← group? data i
      if code < first || last < code then failure
      glyphNumber? (glyph + code - first)
  | ranges data count =>
    (List.range count).findSome? fun i ↦ do
      let (first, last, glyph) ← group? data i
      if code < first || last < code then failure
      glyphNumber? glyph
  | other => none

end CharacterTable

/-- The Unicode tables of a font, in the order they are looked up. -/
structure CharacterMap where
  tables : List CharacterTable := []

namespace CharacterMap

open BigEndian

/-- Whether a table of a platform and an encoding is for Unicode. -/
def isUnicode (platform encoding : Nat) (t : CharacterTable) : Bool :=
  platform == 0 || platform == 3 && (encoding == 1 || encoding == 10 &&
    match t with
    | .groups .. => true
    | .ranges .. => true
    | _ => false)

/-- The Unicode tables of the records from `i` on, up to the first that cannot be read. -/
def tablesFrom (data : ByteArray) (i : Nat) : Nat → List CharacterTable
  | 0 => []
  | more + 1 =>
    let record := do
      let platform ← word? data (4 + 8 * i)
      let encoding ← word? data (6 + 8 * i)
      let offset ← long? data (8 + 8 * i)
      if 4 < platform || data.size < offset then failure
      let t ← CharacterTable.read? (data.extract offset data.size)
      return (isUnicode platform encoding t, t)
    match record with
    | none => []
    | some (true, t) => t :: tablesFrom data (i + 1) more
    | some (false, _) => tablesFrom data (i + 1) more

/-- The map in a table of a font file. -/
def read? (data : ByteArray) : Option CharacterMap := do
  let count ← word? data 2
  if data.size < 4 + 8 * count then failure
  return ⟨tablesFrom data 0 count⟩

def glyph? (m : CharacterMap) (c : Char) : Option Nat := m.tables.findSome? (·.glyph? c.toNat)

end CharacterMap

end PagedReport
