import PagedReport.Image.Fault

/-!
# Images to embed

A JPEG file is embedded as it is.  A PNG file is decoded; if not all of its pixels are opaque they
come with a mask.
-/

namespace PagedReport

inductive ImageData where
  /-- Three bytes for every pixel, and one byte for every pixel of the mask. -/
  | pixels (rgb : ByteArray) (mask : Option ByteArray)
  | file (bytes : ByteArray) (gray : Bool)

structure Image where
  width : Nat
  height : Nat
  data : ImageData

namespace Image

inductive Format where
  | png
  | jpeg
  /-- A format that is known by name only. -/
  | other (name : String)
deriving DecidableEq, Repr

/-- Bytes that files of a format begin with; any byte may stand for `none`. -/
structure Signature where
  bytes : List (Option UInt8)
  format : Format

def exactly (bs : List UInt8) : List (Option UInt8) := bs.map some

def ascii (s : String) : List (Option UInt8) := exactly s.toUTF8.toList

def anyBytes (n : Nat) : List (Option UInt8) := List.replicate n none

def signatures : List Signature :=
  [ ⟨exactly [0x89, 0x50, 0x4E, 0x47, 0x0D, 0x0A, 0x1A, 0x0A], .png⟩,
    ⟨exactly [0xFF, 0xD8, 0xFF], .jpeg⟩,
    ⟨ascii "GIF89a", .other "Gif"⟩,
    ⟨ascii "GIF87a", .other "Gif"⟩,
    ⟨ascii "RIFF" ++ anyBytes 4 ++ ascii "WEBP", .other "WebP"⟩,
    ⟨exactly [0x4D, 0x4D, 0x00, 0x2A], .other "Tiff"⟩,
    ⟨exactly [0x49, 0x49, 0x2A, 0x00], .other "Tiff"⟩,
    ⟨ascii "DDS ", .other "Dds"⟩,
    ⟨ascii "BM", .other "Bmp"⟩,
    ⟨exactly [0, 0, 1, 0], .other "Ico"⟩,
    ⟨ascii "#?RADIANCE", .other "Hdr"⟩,
    ⟨exactly [0, 0] ++ anyBytes 2 ++ ascii "ftypavif", .other "Avif"⟩,
    ⟨exactly [0x76, 0x2F, 0x31, 0x01], .other "OpenExr"⟩,
    ⟨ascii "qoif", .other "Qoi"⟩,
    ⟨ascii "P1", .other "Pnm"⟩,
    ⟨ascii "P2", .other "Pnm"⟩,
    ⟨ascii "P3", .other "Pnm"⟩,
    ⟨ascii "P4", .other "Pnm"⟩,
    ⟨ascii "P5", .other "Pnm"⟩,
    ⟨ascii "P6", .other "Pnm"⟩,
    ⟨ascii "P7", .other "Pnm"⟩,
    ⟨ascii "farbfeld", .other "Farbfeld"⟩ ]

def Signature.fits (s : Signature) (file : ByteArray) : Bool :=
  s.bytes.length ≤ file.size &&
    (s.bytes.zip (file.extract 0 s.bytes.length).toList).all fun (want, byte) ↦
      want.all (· == byte)

/-- The format of a file by its first bytes. -/
def format? (file : ByteArray) : Option Format :=
  (signatures.find? (·.fits file)).map (·.format)

def ofPicture (p : Png.Picture) : Image :=
  let rgb := p.pixels.foldl (fun out q ↦ ((out.push q.red).push q.green).push q.blue) .empty
  let mask := p.pixels.foldl (fun out q ↦ out.push q.alpha) .empty
  let solid := p.pixels.all (·.alpha == 255)
  ⟨p.width, p.height, .pixels rgb (if solid then none else some mask)⟩

/-- Makes an image of the bytes of a file. -/
def decode (file : ByteArray) : Except ImageFault Image :=
  match format? file with
  | none => .error .unknownFormat
  | some (.other name) => .error (.unsupportedFormat name)
  | some .png =>
    match Png.decode file with
    | .ok p => .ok (ofPicture p)
    | .error e => .error (.png e)
  | some .jpeg =>
    match Jpeg.frame file with
    | .ok f => .ok ⟨f.width, f.height, .file file (f.components == 1)⟩
    | .error e => .error (.jpeg e)

def load (files : Files) (path : String) : Except ImageFault Image :=
  match files path with
  | .error e => .error (.unreadable e)
  | .ok file => decode file

end Image

end PagedReport
