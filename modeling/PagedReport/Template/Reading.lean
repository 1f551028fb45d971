import PagedReport.Files
import PagedReport.Report.Model
import PagedReport.Template.Element
import PagedReport.Text.Utf8
import PagedReport.Xml.Message
import PagedReport.Xml.Reader

/-!
# Reading templates

A template is an XML document.  Of blocks with one tag the last one counts, but every one of them
must be readable.
-/

namespace PagedReport

namespace Template

open Report

/-! ## Blocks -/

def metadataPart (m : Metadata) (e : Xml.Element) : Metadata :=
  match e.name with
  | "name" => { m with name := e.chardata }
  | "description" => { m with description := e.chardata }
  | "author" => { m with author := e.chardata }
  | "created" => { m with created := e.chardata }
  | "modified" => { m with modified := e.chardata }
  | _ => m

def metadata (e : Xml.Element) : Metadata := e.elements.foldl metadataPart {}

/-- Margins; a side that is not given has none. -/
def margins (e : Xml.Element) : Decoder (Margins Float) := do
  let top ← value .number e "top"
  let right ← value .number e "right"
  let bottom ← value .number e "bottom"
  let left ← value .number e "left"
  return { top, right, bottom, left }

def setupPart (p : PageSetup Float) (e : Xml.Element) : Decoder (PageSetup Float) :=
  match e.name with
  | "margins" => do
    let margins ← margins e
    return { p with margins }
  | "customSize" => do
    let width ← value .number e "width"
    let height ← value .number e "height"
    if 0 < width ∧ 0 < height then return { p with customSize := some ⟨width, height⟩ }
    say .ignoredCustomSize
    return p
  | _ => pure p

def setup (e : Xml.Element) : Decoder (PageSetup Float) := do
  let usual : PageSetup Float := default
  let orientation ← setting Orientation.ofName e "orientation"
  let unit ← setting LengthUnit.ofName e "unit"
  let format ← setting PageFormat.ofName e "format"
  e.elements.foldlM setupPart
    { usual with
      orientation := orientation.getD usual.orientation
      unit := unit.getD usual.unit
      format := format.getD usual.format }

def fontFile (e : Xml.Element) : FontFile :=
  ⟨string e "name", string e "family", string e "style", string e "file"⟩

def stylePart (s : Style) (e : Xml.Element) : Decoder Style :=
  match e.name with
  | "fontFamily" =>
    pure { s with fontFamily := some (trimmed e.chardata) |>.filter (!·.isEmpty) }
  | "fontStyle" => pure { s with fontStyle := trimmed e.chardata }
  | "fontSize" => do
    let fontSize ← content .number e
    return { s with fontSize }
  | "textColor" => do
    let c ← color e
    return { s with textColor := some c }
  | "fillColor" => do
    let c ← color e
    return { s with fillColor := some c }
  | "align" => do
    let align ← content .align e
    return { s with align }
  | "lineHeight" => do
    let lineHeight ← content .number e
    return { s with lineHeight }
  | _ => pure s

def style (e : Xml.Element) : Decoder Style :=
  e.elements.foldlM stylePart { name := string e "name" }

def band (e : Xml.Element) : Decoder Band := do
  let height ← value .number e "height"
  let elements ← elements bandElement? e
  let enabled ← value .boolean e "enabled"
  return { enabled, height := if height == 0 then Band.usualHeight else height, elements }

def sectionBlock (e : Xml.Element) : Decoder Section := do
  let breakBefore ← value .boolean e "pageBreakBefore"
  let breakAfter ← value .boolean e "pageBreakAfter"
  let elements ← elements sectionElement? e
  return {
    name := string e "name"
    breakBefore
    breakAfter
    condition := string? e "condition"
    loop := string? e "loop"
    loopVariable := string? e "loopVariable"
    elements }

/-! ## Reports -/

def block (r : Report) (e : Xml.Element) : Decoder Report :=
  match e.name with
  | "metadata" => pure { r with metadata := some (metadata e) }
  | "document" => do
    let setup ← setup e
    return { r with setup }
  | "fonts" => pure { r with fonts := (e.named "font").map fontFile }
  | "styles" => do
    let styles ← (e.named "style").mapM style
    return { r with styles }
  | "header" => do
    let header ← band e
    return { r with header := some header }
  | "footer" => do
    let footer ← band e
    return { r with footer := some footer }
  | "sections" => do
    let sections ← (e.named "section").mapM sectionBlock
    return { r with sections }
  | _ => pure r

/-- The report that a document describes, whatever the tag of its root. -/
def report (root : Xml.Element) : Decoder Report :=
  root.elements.foldlM block { version := string root "version" }

end Template

/-! ## Whole templates -/

/-- Why a template gives no report. -/
inductive TemplateError where
  | file (path : String) (e : FileError)
  | encoding (e : Utf8Error)
  | xml (e : Xml.Error)
  | value (e : Template.ValueError)
deriving DecidableEq, Repr

namespace TemplateError

def message : TemplateError → String
  | file path e => s!"Failed to read template file '{path}': {e.message}"
  | encoding e => s!"Template is not valid UTF-8: {e.message}"
  | xml e => s!"XML parsing error: {e.message}"
  | value e => e.message

/-- Where in the template the error is, if it is there. -/
def place? : TemplateError → Option Position
  | file .. => none
  | encoding _ => none
  | xml e => some e.position
  | value e => some e.place

end TemplateError

namespace Template

/-- A result, with all that was said until it was there. -/
abbrev Outcome := Except TemplateError Report × List Warning

/-- Reads the text of a template. -/
def read (text : String) : Outcome :=
  match Xml.read text with
  | .error e => (.error (.xml e), [])
  | .ok root =>
    match (report root).run [] with
    | (.ok r, warnings) => (.ok r, warnings)
    | (.error e, warnings) => (.error (.value e), warnings)

/-- Reads a template from bytes. -/
def readBytes (bytes : ByteArray) : Outcome :=
  match Utf8.decode bytes with
  | .error e => (.error (.encoding e), [])
  | .ok text => read text

/-- Reads a template from the file at a path. -/
def readAt (files : Files) (path : String) : Outcome :=
  match files path with
  | .error e => (.error (.file path e), [])
  | .ok bytes => readBytes bytes

end Template

end PagedReport
