import PagedReport.Pdf.Document
import PagedReport.Pdf.EmbeddedFont

/-!
# Documents in the making

A draft is a device that turns marks into operations.  Fonts and images become resources when they
are first used and keep their names from then on.
-/

namespace PagedReport

namespace Pdf

structure FontSlot where
  key : FontKey
  program : FontProgram

structure ImageSlot where
  path : String
  image : Image

structure Draft where
  files : Files
  compress : Bool := false
  pages : Array Page := #[]
  fonts : Array FontSlot := #[]
  images : Array ImageSlot := #[]

namespace Draft

/-- The name of a font resource. -/
def fontName (index : Nat) : String := s!"F{index + 1}"

/-- The name of an image resource. -/
def imageName (index : Nat) : String := s!"Im{index + 1}"

/-- Adds operations to the last page. -/
def add (ops : List Operation) (d : Draft) : Draft :=
  { d with pages := d.pages.modify (d.pages.size - 1) fun p ↦
      { p with operations := p.operations ++ ops.toArray } }

def pageHeight (d : Draft) : Float := (d.pages.back?.map (·.height)).getD 0

/-! ## Fonts -/

def fontIndex? (d : Draft) (key : FontKey) : Option Nat := d.fonts.findIdx? (·.key == key)

/-- The font of a key; a key that no font is registered under stands for a standard font. -/
def fontSlot (key : FontKey) (d : Draft) : Nat × Draft :=
  match d.fontIndex? key with
  | some index => (index, d)
  | none =>
    let standard := (StandardFont.ofKey? key).getD ⟨.helvetica, .regular⟩
    (d.fonts.size, { d with fonts := d.fonts.push ⟨key, .standard standard⟩ })

/-- Registers a font program, in the place of one with the same key. -/
def registerFont (key : FontKey) (data : ByteArray) (d : Draft) : Except CanvasError Draft := do
  let f ← EmbeddedFont.read key data
  let slot : FontSlot := ⟨key, .embedded f⟩
  match d.fontIndex? key with
  | some index => return { d with fonts := d.fonts.setIfInBounds index slot }
  | none => return { d with fonts := d.fonts.push slot }

def program? (d : Draft) (key : FontKey) : Option FontProgram :=
  (d.fonts.find? (·.key == key)).map (·.program)

def hasFont (d : Draft) (key : FontKey) : Bool :=
  match d.program? key with
  | some (.embedded _) => true
  | _ => false

def textWidth (d : Draft) (key : FontKey) (text : String) : Float :=
  ((d.program? key).getD (.standard ⟨.helvetica, .regular⟩)).textWidth text

/-! ## Marks -/

def drawText (x baseline : Float) (text : String) (key : FontKey) (size : Float) (color : Color)
    (d : Draft) : Draft :=
  let (index, d) := d.fontSlot key
  match d.fonts[index]? with
  | none => d
  | some slot =>
    let (bytes, hex, program) := slot.program.encode text
    let y := d.pageHeight - baseline
    { d with fonts := d.fonts.setIfInBounds index { slot with program } }.add
      [ .beginText,
        .setFillColor color.unit,
        .setFont (fontName index) size.toFloat32,
        .moveText x.toFloat32 y.toFloat32,
        .showText bytes hex,
        .endText ]

def strokeSetup (p : Paint Float) : List Operation :=
  [.setLineWidth p.lineWidth.toFloat32, .setStrokeColor p.stroke.unit]

def drawLine (x₁ y₁ x₂ y₂ : Float) (p : Paint Float) (d : Draft) : Draft :=
  let h := d.pageHeight
  d.add <| strokeSetup p ++
    [ .moveTo x₁.toFloat32 (h - y₁).toFloat32,
      .lineTo x₂.toFloat32 (h - y₂).toFloat32,
      .paintPath .stroke ]

/-- How far control points are from the ends of a quarter of a circle of radius one. -/
def arc : Float := 0.5522848

/-- A path around a rectangle with round corners, from its lower left corner `(x₀, y₀)` to its upper
right corner `(x₁, y₁)`. -/
def roundedPath (x₀ y₀ x₁ y₁ r : Float) : List Operation :=
  let k := r * arc
  let move := fun (x y : Float) ↦ Operation.moveTo x.toFloat32 y.toFloat32
  let line := fun (x y : Float) ↦ Operation.lineTo x.toFloat32 y.toFloat32
  let curve := fun (a b c d e f : Float) ↦
    Operation.curveTo a.toFloat32 b.toFloat32 c.toFloat32 d.toFloat32 e.toFloat32 f.toFloat32
  [ move (x₀ + r) y₀,
    line (x₁ - r) y₀,
    curve (x₁ - r + k) y₀ x₁ (y₀ + r - k) x₁ (y₀ + r),
    line x₁ (y₁ - r),
    curve x₁ (y₁ - r + k) (x₁ - r + k) y₁ (x₁ - r) y₁,
    line (x₀ + r) y₁,
    curve (x₀ + r - k) y₁ x₀ (y₁ - r + k) x₀ (y₁ - r),
    line x₀ (y₀ + r),
    curve x₀ (y₀ + r - k) (x₀ + r - k) y₀ (x₀ + r) y₀,
    .closePath ]

/-- The radius that fits into a rectangle. -/
def fittingRadius (radius : Float) (r : Rect Float) : Float :=
  Scalar.smaller (Scalar.smaller radius (r.width / 2)) (r.height / 2)

def drawRect (rect : Rect Float) (radius : Float) (painting : Painting) (p : Paint Float)
    (d : Draft) : Draft :=
  let h := d.pageHeight
  let bottom := h - rect.y - rect.height
  let r := fittingRadius radius rect
  let path :=
    if 0 < r then roundedPath rect.x bottom (rect.x + rect.width) (h - rect.y) r
    else [.rectangle rect.x.toFloat32 bottom.toFloat32 rect.width.toFloat32 rect.height.toFloat32]
  d.add <| (if painting.fills then [.setFillColor p.fill.unit] else []) ++
    (if painting.strokes then strokeSetup p else []) ++ path ++ [.paintPath painting]

def draw : Mark Float → Draft → Draft
  | .text x baseline text font size color, d => d.drawText x baseline text font size color
  | .line x₁ y₁ x₂ y₂ p, d => d.drawLine x₁ y₁ x₂ y₂ p
  | .rect r radius painting p, d => d.drawRect r radius painting p

/-! ## Images -/

/-- The image of a path, loaded when it is first used. -/
def imageSlot (path : String) (d : Draft) : Except CanvasError (Nat × Image × Draft) :=
  let same := fun (slot : ImageSlot) ↦ FileTree.pathNames slot.path == FileTree.pathNames path
  match d.images.findIdx? same, d.images.find? same with
  | some index, some slot => .ok (index, slot.image, d)
  | _, _ =>
    match Image.load d.files path with
    | .error fault => .error (.image path fault)
    | .ok image => .ok (d.images.size, image, { d with images := d.images.push ⟨path, image⟩ })

def imageSize (path : String) (d : Draft) : Except CanvasError ((Nat × Nat) × Draft) := do
  let (_, image, d) ← d.imageSlot path
  return ((image.width, image.height), d)

def drawImage (path : String) (place : Rect Float) (d : Draft) : Except CanvasError Draft := do
  let (index, _, d) ← d.imageSlot path
  let bottom := d.pageHeight - place.y - place.height
  return d.add
    [ .save,
      .place place.width.toFloat32 place.height.toFloat32 place.x.toFloat32 bottom.toFloat32,
      .drawResource (imageName index),
      .restore ]

/-! ## The end -/

def document (info : DocumentInfo) (d : Draft) : Document :=
  { info := infoEntries info
    pages := d.pages.toList
    fonts := d.fonts.toList.mapIdx fun i slot ↦ (fontName i, slot.program.object)
    images := d.images.toList.mapIdx fun i slot ↦ (imageName i, imageObject slot.image)
    compress := d.compress }

instance : Device Float Draft Document where
  registerFont := registerFont
  hasFont := hasFont
  textWidth := textWidth
  imageSize := imageSize
  beginPage size d :=
    { d with pages := d.pages.push { width := size.width, height := size.height } }
  mark := draw
  image := drawImage
  finish info sink d :=
    match sink with
    | .broken reason => .error (.output reason)
    | .sound => .ok (d.document info, d)

end Draft

end Pdf

end PagedReport
