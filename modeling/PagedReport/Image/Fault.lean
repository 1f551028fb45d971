import PagedReport.Files
import PagedReport.Image.Jpeg
import PagedReport.Image.Png

/-!
# Why images cannot be drawn
-/

namespace PagedReport

namespace Png

/-- A number in hexadecimal. -/
def hex (n : Nat) : String := String.ofList (Nat.toDigits 16 n)

/-- A chunk by its name, with what the cases of its letters say. -/
def describe (name : String) : String :=
  let lower := fun (i : Nat) ↦ toString ((name.toList.getD i 'A').isLower)
  let critical := toString !(name.toList.getD 0 'A').isLower
  "ChunkType \x7b type: " ++ name ++ ", critical: " ++ critical ++ ", private: " ++ lower 1 ++
    ", reserved: " ++ lower 2 ++ ", safecopy: " ++ lower 3 ++ " \x7d"

def dataFault : Flate.InflateFault → String
  | .cutOff => "Corrupt deflate stream. Insufficient input data."
  | _ => "Corrupt deflate stream."

def Fault.message : Fault → String
  | .cutOff => "unexpected end of file"
  | .check name written computed =>
    let sums := s!"expected 0x{hex written} have 0x{hex computed}"
    format s!"CRC error: {sums} while decoding {describe name} chunk."
  | .chunkBeforeHeader name => format s!"{describe name} chunk appeared before IHDR chunk"
  | .dimensions => format "Invalid image dimensions"
  | .colorType code => format s!"Invalid color type {code}."
  | .depth n => format s!"Invalid bit depth {n}."
  | .colorDepth => format "Invalid color/depth combination in header."
  | .noPalette => format "Missing palette of indexed image."
  | .interlacing n => format s!"Unknown interlace method {n}."
  | .noData => format "IDAT or fDAT chunk is missing."
  | .tooLittleData => format "IDAT or fDAT chunk does not have enough data for image."
  | .damagedData e => format (dataFault e)
  | .predictor n => format s!"Unknown filter method {n}."
where
  format (s : String) : String := s!"Format error decoding Png: {s}"

end Png

inductive ImageFault where
  | fileMissing
  | unreadable (e : FileError)
  | unknownFormat
  | unsupportedFormat (name : String)
  | png (e : Png.Fault)
  | jpeg (e : Jpeg.Fault)
  | noPixels
deriving DecidableEq, Repr

def ImageFault.message : ImageFault → String
  | .fileMissing => "file not found"
  | .unreadable e => e.message
  | .unknownFormat => "The image format could not be determined"
  | .unsupportedFormat name => s!"The image format {name} is not supported"
  | .png e => e.message
  | .jpeg e => s!"Format error decoding Jpeg: {e.message}"
  | .noPixels => "image has no pixels"

end PagedReport
