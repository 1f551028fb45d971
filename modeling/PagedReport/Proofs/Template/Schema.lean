import Mathlib.Data.List.Basic
import PagedReport.Template.Reading

/-!
# The schema of templates

Where an element stands decides which of its children and attributes are read.  A template is pruned
when everything else is taken out of it; its outline is what is left, wherever it is written.
-/

namespace PagedReport

/-- An element as a node. -/
def Xml.Element.node (e : Xml.Element) : Xml.Node :=
  .element e.name e.attributes e.children e.place

namespace Template

/-! ## Kinds of values -/

/-- What an attribute or an element holds, if not any text. -/
inductive Kind where
  | number
  | integer
  | boolean
  | align
  | orientation
  | unit
  | format

namespace Kind

def alignNames : List String :=
  ["l", "left", "c", "center", "centre", "r", "right", "j", "justify"]

def unitNames : List String := ["pt", "mm", "cm", "in", "inch"]

def formatNames : List String := ["a3", "a4", "a5", "letter", "legal", "tabloid"]

/-- A trimmed text is a value of a kind. -/
def Allows : Kind → List Char → Prop
  | number, text => (readDouble text).isSome
  | integer, text => ∃ n, readInt64 text = .ok n
  | boolean, text =>
    String.ofList text ∈
      ["1", "t", "T", "TRUE", "true", "True", "0", "f", "F", "FALSE", "false", "False"]
  | align, text => settingName (String.ofList text) ∈ alignNames
  | orientation, text =>
    settingName (String.ofList text) ∈ ["p", "portrait"] ∨
      (settingName (String.ofList text)).toList.head? = some 'l'
  | unit, text => settingName (String.ofList text) ∈ unitNames
  | format, text => settingName (String.ofList text) ∈ formatNames

/-- A text is blank or a value of a kind. -/
def Reads (k : Kind) (raw : String) : Prop :=
  trimBoth raw.toList = [] ∨ k.Allows (trimBoth raw.toList)

end Kind

/-! ## Sites -/

/-- Where an element can stand.  A plain element holds nothing but texts, which may be any. -/
inductive Site where
  | report
  | metadata
  | document
  | margins
  | customSize
  | fonts
  | styles
  | style
  | band
  | sections
  | sectionBlock
  | text
  | image
  | rule
  | table
  | columns
  | column
  | list
  | keyValues
  | box
  | color
  | number
  | alignment
  | plain

namespace Site

/-- The tags of the child elements that are read, and where these stand. -/
def children : Site → List (String × Site)
  | report =>
    [("metadata", metadata), ("document", document), ("fonts", fonts), ("styles", styles),
      ("header", band), ("footer", band), ("sections", sections)]
  | metadata =>
    [("name", plain), ("description", plain), ("author", plain), ("created", plain),
      ("modified", plain)]
  | document => [("margins", margins), ("customSize", customSize)]
  | fonts => [("font", plain)]
  | styles => [("style", style)]
  | style =>
    [("fontFamily", plain), ("fontStyle", plain), ("fontSize", number), ("textColor", color),
      ("fillColor", color), ("align", alignment), ("lineHeight", number)]
  | band => [("text", text), ("image", image), ("line", rule)]
  | sections => [("section", sectionBlock)]
  | sectionBlock =>
    [("text", text), ("image", image), ("table", table), ("list", list),
      ("keyValueList", keyValues), ("line", rule), ("rectangle", box), ("pageBreak", plain)]
  | table => [("alternateRowColor", color), ("columns", columns)]
  | columns => [("column", column)]
  | keyValues => [("item", plain)]
  | box => [("fillColor", color), ("borderColor", color), ("borderWidth", number)]
  | margins | customSize | text | image | rule | column | list | color | number | alignment
  | plain => []

/-- The attributes that hold values.  All others hold texts: for names, paths, conditions and the
colours of lines, every text will do. -/
def attributes : Site → List (String × Kind)
  | document => [("orientation", .orientation), ("unit", .unit), ("format", .format)]
  | margins => [("top", .number), ("right", .number), ("bottom", .number), ("left", .number)]
  | customSize => [("width", .number), ("height", .number)]
  | band => [("height", .number), ("enabled", .boolean)]
  | sectionBlock => [("pageBreakBefore", .boolean), ("pageBreakAfter", .boolean)]
  | text =>
    [("spacingAfter", .number), ("x", .number), ("y", .number), ("width", .number),
      ("align", .align), ("wrap", .boolean)]
  | image =>
    [("spacingAfter", .number), ("x", .number), ("y", .number), ("width", .number),
      ("height", .number), ("align", .align)]
  | rule =>
    [("spacingAfter", .number), ("x1", .number), ("y1", .number), ("x2", .number),
      ("y2", .number), ("width", .number)]
  | table => [("spacingAfter", .number), ("border", .boolean)]
  | column => [("width", .number), ("align", .align)]
  | list => [("spacingAfter", .number), ("indent", .number)]
  | keyValues =>
    [("spacingAfter", .number), ("keyWidth", .number), ("valueWidth", .number),
      ("valueAlign", .align)]
  | box =>
    [("spacingAfter", .number), ("x", .number), ("y", .number), ("width", .number),
      ("height", .number), ("radius", .number), ("borderWidth", .number)]
  | color => [("r", .integer), ("g", .integer), ("b", .integer)]
  | report | metadata | fonts | styles | style | sections | columns | number | alignment
  | plain => []

/-- What is written inside an element, if that is a value. -/
def content? : Site → Option Kind
  | number => some .number
  | alignment => some .align
  | _ => none

/-- Where a child element with a tag stands. -/
def child? (site : Site) (tag : String) : Option Site := site.children.lookup tag

/-- How deep elements are nested at a site. -/
def depth : Site → Nat
  | report => 5
  | sections => 4
  | sectionBlock => 3
  | styles | table => 2
  | metadata | document | fonts | style | band | columns | keyValues | box => 1
  | margins | customSize | text | image | rule | column | list | color | number | alignment
  | plain => 0

theorem mem_children {site s : Site} {tag : String} (h : site.child? tag = some s) :
    (tag, s) ∈ site.children := by
  obtain ⟨before, after, heq, -⟩ := List.lookup_eq_some_iff.mp h
  rw [heq]
  simp

theorem depth_child {site s : Site} {tag : String} (h : site.child? tag = some s) :
    s.depth < site.depth := by
  have hall : ∀ p ∈ site.children, p.2.depth < site.depth := by cases site <;> decide
  exact hall _ (mem_children h)

/-- The child elements that are read, with their sites. -/
def parts (site : Site) (e : Xml.Element) : List (Site × Xml.Element) :=
  e.elements.filterMap fun c ↦ (site.child? c.name).map (·, c)

/-- The child elements that are read. -/
def recognised (site : Site) (e : Xml.Element) : List Xml.Element :=
  e.elements.filter fun c ↦ (site.child? c.name).isSome

theorem mem_parts {site s : Site} {e c : Xml.Element} (h : (s, c) ∈ site.parts e) :
    c ∈ e.elements ∧ site.child? c.name = some s := by
  obtain ⟨c', hmem, hc⟩ := List.mem_filterMap.mp h
  obtain ⟨s', hs, heq⟩ := Option.map_eq_some_iff.mp hc
  obtain ⟨rfl, rfl⟩ := Prod.mk.inj heq
  exact ⟨hmem, hs⟩

end Site

/-! ## Outlines -/

/-- What of an element at a site can make a difference. -/
inductive Outline where
  | mk (site : Site) (name : String) (attributes : List Xml.Attribute) (text : String)
    (parts : List Outline)

/-- The outline of an element: its name, attributes and text, and the outlines of the children that
are read.  It knows of no places and of nothing else between the texts. -/
def outline (site : Site) (e : Xml.Element) : Outline :=
  .mk site e.name e.attributes e.chardata <| e.elements.filterMap fun c ↦
    match _h : site.child? c.name with
    | some s => some (outline s c)
    | none => none
termination_by site.depth
decreasing_by exact Site.depth_child _h

theorem outline_eq (site : Site) (e : Xml.Element) :
    outline site e = .mk site e.name e.attributes e.chardata
      ((site.parts e).map fun p ↦ outline p.1 p.2) := by
  rw [outline, Site.parts, List.map_filterMap]
  congr 2
  funext c
  split
  · next s hs => rw [hs]; rfl
  · next hnone => rw [hnone]; rfl

/-! ## Pruning -/

/-- An element without the child elements that are not read, and without comments and instructions,
and its children likewise. -/
def pruned (site : Site) (e : Xml.Element) : Xml.Element :=
  { e with
    children := e.children.filterMap fun
      | .element name attributes children place =>
        match _h : site.child? name with
        | some s => some (pruned s ⟨name, attributes, children, place⟩).node
        | none => none
      | .text content => some (.text content)
      | .comment _ => none
      | .instruction _ _ => none }
termination_by site.depth
decreasing_by exact Site.depth_child _h

theorem pruned_name (site : Site) (e : Xml.Element) : (pruned site e).name = e.name := by
  rw [pruned]

theorem pruned_attributes (site : Site) (e : Xml.Element) :
    (pruned site e).attributes = e.attributes := by
  rw [pruned]

theorem pruned_chardata (site : Site) (e : Xml.Element) :
    (pruned site e).chardata = e.chardata := by
  rw [pruned, Xml.Element.chardata, Xml.Element.chardata, List.filterMap_filterMap]
  congr 2
  funext n
  cases n with
  | element name attributes children place => dsimp only; split <;> rfl
  | text | comment | instruction => rfl

theorem pruned_elements (site : Site) (e : Xml.Element) :
    (pruned site e).elements = (site.parts e).map fun p ↦ pruned p.1 p.2 := by
  rw [pruned, Site.parts, Xml.Element.elements, Xml.Element.elements]
  simp only [List.filterMap_filterMap, List.map_filterMap]
  congr 1
  funext n
  cases n with
  | text | comment | instruction => rfl
  | element name attributes children place =>
      simp only [Xml.Node.toElement?, Option.bind_some]
      split
      · next s hs => rw [hs]; rfl
      · next hnone => rw [hnone]; rfl

theorem pruned_parts (site : Site) (e : Xml.Element) :
    site.parts (pruned site e) = (site.parts e).map fun p ↦ (p.1, pruned p.1 p.2) := by
  rw [Site.parts, pruned_elements, List.filterMap_map, ← List.filterMap_eq_map]
  refine List.filterMap_congr fun ⟨s, c⟩ hp ↦ ?_
  obtain ⟨-, hs⟩ := Site.mem_parts hp
  simp [pruned_name, hs]

/-- Pruning takes nothing out of an outline. -/
theorem outline_pruned (site : Site) (e : Xml.Element) :
    outline site (pruned site e) = outline site e := by
  induction hdepth : site.depth using Nat.strongRecOn generalizing site e with
  | _ depth ih =>
      rw [outline_eq, outline_eq, pruned_name, pruned_attributes, pruned_chardata, pruned_parts,
        List.map_map]
      congr 1
      refine List.map_congr_left fun ⟨s, c⟩ hp ↦ ?_
      exact ih s.depth (hdepth ▸ Site.depth_child (Site.mem_parts hp).2) s c rfl

end Template

end PagedReport
