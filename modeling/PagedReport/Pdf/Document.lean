import PagedReport.Font.Standard
import PagedReport.Image.Loading
import PagedReport.Pdf.Operation

/-!
# Finished documents

A document is its pages, the resources that all of them share, and what is said about it.
-/

namespace PagedReport

namespace Pdf

structure Page where
  width : Float
  height : Float
  operations : Array Operation := #[]

structure Document where
  info : List (String × Object)
  pages : List Page
  fonts : List (String × Object)
  images : List (String × Object)
  /-- Streams that get smaller are to be compressed. -/
  compress : Bool

def version : String := "1.5"

/-- The extent of a page. -/
def Page.mediaBox (p : Page) : Object :=
  .array [.integer 0, .integer 0, .real p.width.toFloat32, .real p.height.toFloat32]

/-- What operations name. -/
def Document.resources (d : Document) : Object :=
  .dictionary [("Font", .dictionary d.fonts), ("XObject", .dictionary d.images)]

/-- The program that makes the document. -/
def producer : String := "quire"

def infoEntry (key value : String) : List (String × Object) :=
  if value.isEmpty then [] else [(key, .text (WinAnsi.encode value))]

/-- The properties of a document; empty ones are left out. -/
def infoEntries (i : DocumentInfo) : List (String × Object) :=
  infoEntry "Producer" producer ++ infoEntry "Title" i.title ++ infoEntry "Author" i.author ++
    infoEntry "Subject" i.subject ++ infoEntry "Creator" i.creator

/-! ## Images -/

def imageEntries (width height : Nat) (space : String) : List (String × Object) :=
  [ ("Type", .name "XObject"),
    ("Subtype", .name "Image"),
    ("Width", .integer width),
    ("Height", .integer height),
    ("ColorSpace", .name space),
    ("BitsPerComponent", .integer 8) ]

/-- The object of an image, with its mask if it has one. -/
def imageObject (i : Image) : Object :=
  let entries := imageEntries i.width i.height
  match i.data with
  | .pixels rgb none => .stream (entries "DeviceRGB") rgb true
  | .pixels rgb (some mask) =>
    let masked := ("SMask", Object.indirect (.stream (entries "DeviceGray") mask true))
    .stream (entries "DeviceRGB" ++ [masked]) rgb true
  | .file bytes gray =>
    let space := if gray then "DeviceGray" else "DeviceRGB"
    .stream (entries space ++ [("Filter", .name "DCTDecode")]) bytes false

end Pdf

end PagedReport
