import PagedReport.Number.Reading
import PagedReport.Xml.Tree

/-!
# Values in templates

Attributes and short elements hold numbers, truth values, alignments and names of settings.  A blank
text stands for a value of its own; any other text that is no value is an error at the element that
has it.
-/

namespace PagedReport

namespace Template

/-- Why a text is not a value. -/
inductive ValueFault where
  | number
  | integer (e : IntegerError)
  | boolean
  | align
  | setting (e : UnknownName)
deriving DecidableEq, Repr

def ValueFault.message : ValueFault → String
  | .number => "invalid float literal"
  | .integer e => e.message
  | .boolean => "expected a boolean"
  | .align => "expected one of L, C, R, J"
  | .setting e => e.message

/-- A value that cannot be read: of which attribute or element, and where that is. -/
structure ValueError where
  name : String
  value : String
  place : Position
  fault : ValueFault
deriving DecidableEq, Repr

def ValueError.message (e : ValueError) : String :=
  s!"Invalid value '{e.value}' for '{e.name}' at {e.place.text}: {e.fault.message}"

/-! ## Rules -/

/-- How values of a kind are written. -/
abbrev ValueRule (α : Type) := String → Except ValueFault α

namespace ValueRule

/-- A rule with a value for blank texts. -/
def orBlank {α : Type} (blank : α) (rule : List Char → Except ValueFault α) : ValueRule α :=
  fun raw ↦
    let text := trimBoth raw.toList
    if text.isEmpty then .ok blank else rule text

def number : ValueRule Float :=
  orBlank 0 fun text ↦
    match readDouble text with
    | some x => .ok x
    | none => .error .number

def optionalNumber : ValueRule (Option Float) :=
  orBlank none fun text ↦
    match readDouble text with
    | some x => .ok (some x)
    | none => .error .number

def integer : ValueRule Int :=
  orBlank 0 fun text ↦
    match readInt64 text with
    | .ok n => .ok n
    | .error e => .error (.integer e)

def trueNames : List String := ["1", "t", "T", "TRUE", "true", "True"]

def falseNames : List String := ["0", "f", "F", "FALSE", "false", "False"]

def boolean : ValueRule Bool :=
  orBlank false fun text ↦
    if trueNames.contains (String.ofList text) then .ok true
    else if falseNames.contains (String.ofList text) then .ok false
    else .error .boolean

def align : ValueRule (Option Align) :=
  orBlank none fun text ↦
    match Align.ofName? (String.ofList text) with
    | some a => .ok (some a)
    | none => .error .align

def setting {α : Type} (ofName : String → Except UnknownName α) : ValueRule (Option α) :=
  orBlank none fun text ↦
    match ofName (String.ofList text) with
    | .ok a => .ok (some a)
    | .error e => .error (.setting e)

end ValueRule

/-! ## Reading -/

/-- Reading part of a template.  What is said on the way stays said if a value cannot be read. -/
abbrev Decoder := ExceptT ValueError (StateM (List Warning))

/-- Says something. -/
def say (w : Warning) : Decoder Unit := modify (· ++ [w])

/-- Reads a text that belongs to an element by a rule. -/
def decode {α : Type} (rule : ValueRule α) (e : Xml.Element) (name raw : String) : Decoder α :=
  match rule raw with
  | .ok a => pure a
  | .error fault => throw ⟨name, raw, e.place, fault⟩

/-- The text of an attribute, empty if it is not there. -/
def string (e : Xml.Element) (name : String) : String := (e.attribute? name).getD ""

/-- The text of an attribute that is there and not empty. -/
def string? (e : Xml.Element) (name : String) : Option String :=
  (e.attribute? name).filter (!·.isEmpty)

/-- The value of an attribute. -/
def value {α : Type} (rule : ValueRule α) (e : Xml.Element) (name : String) : Decoder α :=
  decode rule e name (string e name)

/-- The value of an attribute that names a setting. -/
def setting {α : Type} (ofName : String → Except UnknownName α) (e : Xml.Element)
    (name : String) : Decoder (Option α) :=
  decode (.setting ofName) e name (trimmed (string e name))

/-- The value that is written inside an element. -/
def content {α : Type} (rule : ValueRule α) (e : Xml.Element) : Decoder α :=
  decode rule e e.name e.chardata

/-- The colour of an element, moved into range with a warning if need be. -/
def color (e : Xml.Element) : Decoder Color := do
  let red ← value .integer e "r"
  let green ← value .integer e "g"
  let blue ← value .integer e "b"
  let (c, clamped) := Color.ofComponents red green blue
  if clamped then say (.clampedColor e.name e.place c)
  return c

end Template

end PagedReport
