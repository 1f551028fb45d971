import PagedReport.Flate.Inflate
import PagedReport.Number.BigEndian

/-!
# PNG files

A file is a list of chunks.  The pixels are compressed rows of samples, each row predicted from the
one above it; they are decoded to eight bits for each of red, green, blue and alpha.
-/

namespace PagedReport

namespace Png

open BigEndian

/-- Why a file cannot be decoded. -/
inductive Fault where
  /-- The file ends too early. -/
  | cutOff
  | check (name : String) (written computed : Nat)
  | chunkBeforeHeader (name : String)
  | dimensions
  | colorType (code : Nat)
  | depth (n : Nat)
  | colorDepth
  | noPalette
  | interlacing (n : Nat)
  | noData
  | tooLittleData
  | damagedData (e : Flate.InflateFault)
  | predictor (n : Nat)
deriving DecidableEq, Repr

/-! ## Chunks -/

structure Chunk where
  name : String
  content : ByteArray

/-- One step of the check over a byte, bit by bit. -/
def checkBits : Nat → Nat → Nat
  | 0, c => c
  | n + 1, c => checkBits n (if c % 2 = 1 then 0xEDB88320 ^^^ (c / 2) else c / 2)

/-- The steps of the check for all bytes. -/
def checkTable : Array Nat := Array.ofFn fun (i : Fin 256) ↦ checkBits 8 i

/-- The check of a chunk, taken over its name and its content. -/
def checkOf (bytes : ByteArray) : Nat :=
  (bytes.foldl (fun c b ↦ checkTable.getD ((c ^^^ b.toNat) % 256) 0 ^^^ (c / 256)) 0xFFFFFFFF) ^^^
    0xFFFFFFFF

/-- Whether a chunk must be understood. -/
def isCritical (name : String) : Bool := (name.toList.headD 'a').isUpper

def chunkName (bytes : ByteArray) : String :=
  String.ofList (bytes.toList.map fun b ↦ Char.ofNat b.toNat)

/-- The chunks from an offset on, fewer than `fuel`, up to the one that follows the pixels.  A chunk
that is damaged and need not be understood is left out. -/
def chunksFrom (file : ByteArray) : Nat → (inData : Bool) → Nat → Except Fault (List Chunk)
  | 0, _, _ => .error .cutOff
  | fuel + 1, inData, offset =>
    match long? file offset, slice? file (offset + 4) 4 with
    | some size, some nameBytes =>
      let name := chunkName nameBytes
      if inData && name ≠ "IDAT" || name = "IEND" then .ok []
      else
        match slice? file (offset + 8) size, long? file (offset + 8 + size) with
        | some content, some written => do
          let computed := checkOf (nameBytes ++ content)
          if written = computed then
            let rest ← chunksFrom file fuel (name = "IDAT") (offset + 12 + size)
            return ⟨name, content⟩ :: rest
          else if isCritical name then throw (.check name written computed)
          else chunksFrom file fuel inData (offset + 12 + size)
        | _, _ => .error .cutOff
    | _, _ => .error .cutOff

/-! ## The header -/

inductive ColorType where
  | gray
  | rgb
  | indexed
  | grayAlpha
  | rgba
deriving DecidableEq, Repr

def ColorType.samples : ColorType → Nat
  | .gray => 1
  | .rgb => 3
  | .indexed => 1
  | .grayAlpha => 2
  | .rgba => 4

def ColorType.ofCode? : Nat → Option ColorType
  | 0 => some .gray
  | 2 => some .rgb
  | 3 => some .indexed
  | 4 => some .grayAlpha
  | 6 => some .rgba
  | _ => none

structure Header where
  width : Nat
  height : Nat
  depth : Nat
  color : ColorType
  interlaced : Bool

def depths : ColorType → List Nat
  | .gray => [1, 2, 4, 8, 16]
  | .indexed => [1, 2, 4, 8]
  | _ => [8, 16]

def header (content : ByteArray) : Except Fault Header :=
  match long? content 0, long? content 4, slice? content 8 5 with
  | some width, some height, some rest => do
    let byte := fun (i : Nat) ↦ ((rest[i]?).getD 0).toNat
    if width = 0 ∨ height = 0 then throw .dimensions
    if !([1, 2, 4, 8, 16].contains (byte 0)) then throw (.depth (byte 0))
    match ColorType.ofCode? (byte 1) with
    | none => throw (.colorType (byte 1))
    | some color =>
      if !(depths color).contains (byte 0) then throw .colorDepth
      if 1 < byte 4 then throw (.interlacing (byte 4))
      return { width, height, depth := byte 0, color, interlaced := byte 4 = 1 }
  | _, _, _ => .error .cutOff

/-! ## Rows -/

/-- Every `dx`-th pixel of every `dy`-th row, from a first one on. -/
structure Pass where
  x : Nat
  y : Nat
  dx : Nat
  dy : Nat

def Pass.width (p : Pass) (h : Header) : Nat := (h.width + p.dx - 1 - p.x) / p.dx

def Pass.height (p : Pass) (h : Header) : Nat := (h.height + p.dy - 1 - p.y) / p.dy

def interlacedPasses : List Pass :=
  [⟨0, 0, 8, 8⟩, ⟨4, 0, 8, 8⟩, ⟨0, 4, 4, 8⟩, ⟨2, 0, 4, 4⟩, ⟨0, 2, 2, 4⟩, ⟨1, 0, 2, 2⟩, ⟨0, 1, 1, 2⟩]

def passes (h : Header) : List Pass := if h.interlaced then interlacedPasses else [⟨0, 0, 1, 1⟩]

def Header.bits (h : Header) : Nat := h.depth * h.color.samples

def rowBytes (h : Header) (width : Nat) : Nat := (h.bits * width + 7) / 8

/-- Whichever of left, above and upper left is nearest to left plus above less upper left. -/
def paeth (a b c : Nat) : Nat :=
  let p : Int := a + b - c
  let pa := (p - a).natAbs
  let pb := (p - b).natAbs
  let pc := (p - c).natAbs
  if pa ≤ pb ∧ pa ≤ pc then a else if pb ≤ pc then b else c

/-- What a predictor expects, given the bytes to the left, above, and above left. -/
def predict (kind a b c : Nat) : Nat :=
  match kind with
  | 0 => 0
  | 1 => a
  | 2 => b
  | 3 => (a + b) / 2
  | _ => paeth a b c

/-- The bytes of a row from the differences to what is predicted; `step` is the size of a pixel. -/
def unpredict (kind step : Nat) (above raw : ByteArray) : ByteArray :=
  (List.range raw.size).foldl (fun row i ↦
    let byte := fun (bytes : ByteArray) (j : Nat) ↦ ((bytes[j]?).getD 0).toNat
    let left := fun (bytes : ByteArray) ↦ if step ≤ i then byte bytes (i - step) else 0
    row.push
      (UInt8.ofNat (byte raw i + predict kind (left row) (byte above i) (left above)))) .empty

/-- Rows of `size` bytes from an offset on. -/
def rowsFrom (data : ByteArray) (step size : Nat) : Nat → ByteArray → Nat →
    Except Fault (List ByteArray × Nat)
  | 0, _, offset => .ok ([], offset)
  | more + 1, above, offset =>
    match data[offset]?, slice? data (offset + 1) size with
    | some kind, some raw => do
      if 4 < kind.toNat then throw (.predictor kind.toNat)
      let row := unpredict kind.toNat step above raw
      let (rest, offset) ← rowsFrom data step size more row (offset + 1 + size)
      return (row :: rest, offset)
    | _, _ => .error .tooLittleData

/-! ## Pixels -/

structure Pixel where
  red : UInt8
  green : UInt8
  blue : UInt8
  alpha : UInt8
deriving Inhabited

/-- The colours of an indexed file, and what is transparent. -/
structure Palette where
  colors : ByteArray := .empty
  transparency : Option ByteArray := none

/-- Sample `i` of a row. -/
def sample (depth : Nat) (row : ByteArray) (i : Nat) : Nat :=
  let byte := fun (j : Nat) ↦ ((row[j]?).getD 0).toNat
  if depth = 16 then byte (2 * i) * 256 + byte (2 * i + 1)
  else
    let perByte := 8 / depth
    byte (i / perByte) / Nat.pow 2 (8 - depth * (i % perByte + 1)) % Nat.pow 2 depth

/-- A sample spread or rounded to eight bits. -/
def toByte (depth v : Nat) : UInt8 :=
  UInt8.ofNat (if depth = 16 then (v + 128) / 257 else v * (255 / (Nat.pow 2 depth - 1)))

/-- Whether samples are those of the transparent colour. -/
def isTransparent (h : Header) (p : Palette) (samples : List Nat) : Bool :=
  match p.transparency with
  | none => false
  | some t =>
    let key := (List.range samples.length).map fun i ↦
      let v := (word? t (2 * i)).getD 0x10000
      if h.depth = 16 || 0x10000 ≤ v then v else v % 256
    key == samples

def pixel (h : Header) (p : Palette) (row : ByteArray) (x : Nat) : Pixel :=
  let s := fun (i : Nat) ↦ sample h.depth row (x * h.color.samples + i)
  let b := fun (i : Nat) ↦ toByte h.depth (s i)
  match h.color with
  | .gray => ⟨b 0, b 0, b 0, if isTransparent h p [s 0] then 0 else 255⟩
  | .rgb => ⟨b 0, b 1, b 2, if isTransparent h p [s 0, s 1, s 2] then 0 else 255⟩
  | .grayAlpha => ⟨b 0, b 0, b 0, b 1⟩
  | .rgba => ⟨b 0, b 1, b 2, b 3⟩
  | .indexed =>
    let color := fun (i : Nat) ↦ (p.colors[3 * s 0 + i]?).getD 0
    let alpha := (p.transparency.bind fun t ↦ t[s 0]?).getD 255
    ⟨color 0, color 1, color 2, alpha⟩

/-- Puts the pixels of a row in their places. -/
def placeRow (h : Header) (p : Palette) (pass : Pass) (row : ByteArray) (y : Nat)
    (out : Array Pixel) : Array Pixel :=
  (List.range (pass.width h)).foldl (fun out x ↦
    out.setIfInBounds ((pass.y + y * pass.dy) * h.width + pass.x + x * pass.dx)
      (pixel h p row x)) out

def placeRows (h : Header) (p : Palette) (pass : Pass) : Nat → List ByteArray → Array Pixel →
    Array Pixel
  | _, [], out => out
  | y, row :: rest, out => placeRows h p pass (y + 1) rest (placeRow h p pass row y out)

/-- The pixels of all passes from an offset on. -/
def pixelsFrom (h : Header) (p : Palette) (data : ByteArray) :
    List Pass → Nat → Array Pixel → Except Fault (Array Pixel)
  | [], _, out => .ok out
  | pass :: rest, offset, out =>
    if pass.width h = 0 ∨ pass.height h = 0 then pixelsFrom h p data rest offset out
    else do
      let size := rowBytes h (pass.width h)
      let (rows, offset) ← rowsFrom data ((h.bits + 7) / 8) size (pass.height h) .empty offset
      pixelsFrom h p data rest offset (placeRows h p pass 0 rows out)

/-! ## Files -/

structure Picture where
  width : Nat
  height : Nat
  pixels : Array Pixel

def content? (chunks : List Chunk) (name : String) : Option ByteArray :=
  (chunks.find? (·.name == name)).map (·.content)

/-- Decodes a file, whose signature has been checked. -/
def decode (file : ByteArray) : Except Fault Picture := do
  let chunks ← chunksFrom file (file.size + 1) false 8
  match chunks with
  | [] => throw .noData
  | first :: rest =>
    if first.name ≠ "IHDR" then throw (.chunkBeforeHeader first.name)
    let h ← header first.content
    let pieces := rest.filter (·.name == "IDAT")
    if pieces.isEmpty then throw .noData
    let colors := content? rest "PLTE"
    if h.color = .indexed ∧ colors.isNone then throw .noPalette
    let palette : Palette := ⟨colors.getD .empty, content? rest "tRNS"⟩
    match Flate.inflate (pieces.foldl (fun all c ↦ all ++ c.content) .empty) with
    | .error e => throw (.damagedData e)
    | .ok data =>
      let pixels ← pixelsFrom h palette data (passes h) 0
        (Array.replicate (h.width * h.height) default)
      return { width := h.width, height := h.height, pixels }

end Png

end PagedReport
