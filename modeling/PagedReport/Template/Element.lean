import PagedReport.Report.Element
import PagedReport.Template.Value

/-!
# Elements of a template

Every kind of element has a tag.  Child elements with other tags are passed over, whatever they
hold.
-/

namespace PagedReport

namespace Template

open Report

/-- What all kinds of elements but page breaks may have. -/
def element {C : Type} (e : Xml.Element) (content : Decoder C) : Decoder (Element C) := do
  let condition := string? e "condition"
  let spacing ← value .number e "spacingAfter"
  return { condition, spacing, content := ← content }

def text (e : Xml.Element) : Decoder Text := do
  let x ← value .optionalNumber e "x"
  let y ← value .optionalNumber e "y"
  let width ← value .number e "width"
  let align ← value .align e "align"
  let wrap ← value .boolean e "wrap"
  return { content := e.chardata, style := string? e "style", x, y, width, align, wrap }

def image (e : Xml.Element) : Decoder Report.Image := do
  let x ← value .number e "x"
  let y ← value .number e "y"
  let width ← value .number e "width"
  let height ← value .number e "height"
  let align ← value .align e "align"
  return { path := string e "path", x, y, width, height, align }

def rule (e : Xml.Element) : Decoder Rule := do
  let x₁ ← value .number e "x1"
  let y₁ ← value .number e "y1"
  let x₂ ← value .number e "x2"
  let y₂ ← value .number e "y2"
  let width ← value .number e "width"
  return { x₁, y₁, x₂, y₂, color := (string? e "color").map Color.ofAttribute, width }

/-! ## Tables -/

def column (e : Xml.Element) : Decoder Column := do
  let width ← value .number e "width"
  let align ← value .align e "align"
  return {
    header := string e "header"
    field := string e "field"
    width
    align
    format := string e "format" }

def tablePart (t : Table) (e : Xml.Element) : Decoder Table :=
  match e.name with
  | "alternateRowColor" => do
    let c ← color e
    return { t with alternateColor := some c }
  | "columns" => do
    let columns ← (e.named "column").mapM column
    return { t with columns }
  | _ => pure t

def table (e : Xml.Element) : Decoder Table := do
  let border ← value .boolean e "border"
  e.elements.foldlM tablePart {
    source := string e "dataSource"
    headerStyle := string? e "headerStyle"
    cellStyle := string? e "cellStyle"
    border }

/-! ## Lists -/

def bulletList (e : Xml.Element) : Decoder BulletList := do
  let indent ← value .number e "indent"
  return {
    source := string e "items"
    style := string? e "style"
    bullet := string? e "bullet"
    indent }

def entry (e : Xml.Element) : Entry := ⟨string e "key", string e "value"⟩

def keyValues (e : Xml.Element) : Decoder KeyValues := do
  let keyWidth ← value .number e "keyWidth"
  let valueWidth ← value .number e "valueWidth"
  let valueAlign ← value .align e "valueAlign"
  return {
    style := string? e "style"
    keyWidth
    valueWidth
    valueAlign
    entries := (e.named "item").map entry }

/-! ## Boxes -/

def boxPart (b : Box) (e : Xml.Element) : Decoder Box :=
  match e.name with
  | "fillColor" => do
    let c ← color e
    return { b with fillColor := some c }
  | "borderColor" => do
    let c ← color e
    return { b with borderColor := some c }
  | "borderWidth" => do
    let borderWidth ← content .number e
    return { b with borderWidth }
  | _ => pure b

def box (e : Xml.Element) : Decoder Box := do
  let x ← value .number e "x"
  let y ← value .number e "y"
  let width ← value .number e "width"
  let height ← value .number e "height"
  let radius ← value .number e "radius"
  let borderWidth ← value .number e "borderWidth"
  e.elements.foldlM boxPart { x, y, width, height, radius, borderWidth }

/-! ## Elements by their tags -/

/-- An element of a band, if the tag is one of those that bands know. -/
def bandElement? (e : Xml.Element) : Option (Decoder (Element BandContent)) :=
  match e.name with
  | "text" => some (element e (.text <$> text e))
  | "image" => some (element e (.image <$> image e))
  | "line" => some (element e (.rule <$> rule e))
  | _ => none

/-- An element of a section, if the tag is one of those that sections know. -/
def sectionElement? (e : Xml.Element) : Option (Decoder (Element Content)) :=
  match e.name with
  | "table" => some (element e (.table <$> table e))
  | "list" => some (element e (.list <$> bulletList e))
  | "keyValueList" => some (element e (.keyValues <$> keyValues e))
  | "rectangle" => some (element e (.box <$> box e))
  | "pageBreak" => some (pure ⟨string? e "condition", 0, .pageBreak⟩)
  | _ => (bandElement? e).map fun d ↦ Element.map .band <$> d

/-- The elements with known tags, in the order they are written. -/
def elements {α : Type} (known? : Xml.Element → Option (Decoder α)) (e : Xml.Element) :
    Decoder (List α) :=
  (e.elements.filterMap known?).mapM id

end Template

end PagedReport
